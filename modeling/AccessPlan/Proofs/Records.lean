import AccessPlan.Proofs.Applying
import AccessPlan.Value.Equality

/-!
# Records and calls

A plan can be looked at in two ways: as the records of its operations, and as the calls that a recorder notes
when the plan is applied. `Mirrors record call` is the table of what belongs together. It names the
fields of a record and the places of a call, and says nothing of the operation behind them.

* `Mirrors.biUnique`: a record and a call determine each other.
* `mirrors_iff_record?`: how a record is read off a call.
* `Plan.records_mirror_calls`: the records of a well-typed plan and the calls noted from it mirror each other,
  one by one and in order.
-/

set_option autoImplicit false

namespace AccessPlan

/-- The fields of an operation by name, its tag among them. -/
abbrev Record := List (String × Value)

/-- A record and the call that shows the same. -/
inductive Mirrors : Record → Call → Prop
  | pamAllow (kind subject origin permission position : Value) :
    Mirrors [("type", .text "pam_allow"), ("subject_kind", kind), ("subject", subject),
        ("origin", origin), ("permission", permission), ("position", position)]
      { kind := .pamAllow, arguments := [kind, subject, origin, permission, position] }
  | firewallAllow (source label port protocol action : Value) :
    Mirrors [("type", .text "firewall_allow"), ("source", source), ("label", label), ("port", port),
        ("protocol", protocol), ("action", action)]
      { kind := .firewallAllow, arguments := [port, protocol, source, action, label] }
  | tcpWrapperAllow (address service : Value) :
    Mirrors [("type", .text "tcpwrapper_allow"), ("address", address), ("service", service)]
      { kind := .wrapperAllow, arguments := [service, address] }
  | domainAppend (domain kind items : Value) :
    Mirrors [("type", .text "domain_append"), ("domain", domain), ("setting_kind", kind),
        ("items", items)]
      { kind := .appendAllowList, arguments := [domain, kind, items] }
  | matchBlockCreate (criteria pattern position : Value) :
    Mirrors [("type", .text "match_block_create"), ("criteria", criteria), ("pattern", pattern),
        ("position", position)]
      { kind := .createMatchBlock, arguments := [criteria, pattern, position] }
  | matchParamSet (block directive value : Value) :
    Mirrors [("type", .text "match_param_set"), ("block", block), ("directive", directive),
        ("value", value)]
      { kind := .setParameter, arguments := [block, directive, value] }

/-- The record that a call shows, if it is the call of an operation. -/
def Call.record? : Call → Option Record
  | ⟨.pamAllow, [kind, subject, origin, permission, position], none⟩ => some
    [("type", .text "pam_allow"), ("subject_kind", kind), ("subject", subject), ("origin", origin),
      ("permission", permission), ("position", position)]
  | ⟨.firewallAllow, [port, protocol, source, action, label], none⟩ => some
    [("type", .text "firewall_allow"), ("source", source), ("label", label), ("port", port),
      ("protocol", protocol), ("action", action)]
  | ⟨.wrapperAllow, [service, address], none⟩ => some
    [("type", .text "tcpwrapper_allow"), ("address", address), ("service", service)]
  | ⟨.appendAllowList, [domain, kind, items], none⟩ => some
    [("type", .text "domain_append"), ("domain", domain), ("setting_kind", kind), ("items", items)]
  | ⟨.createMatchBlock, [criteria, pattern, position], none⟩ => some
    [("type", .text "match_block_create"), ("criteria", criteria), ("pattern", pattern),
      ("position", position)]
  | ⟨.setParameter, [block, directive, value], none⟩ => some
    [("type", .text "match_param_set"), ("block", block), ("directive", directive), ("value", value)]
  | _ => none

/-- Whether a record is that of an operation on sshd. -/
def Record.IsSshd (r : Record) : Prop :=
  r.lookup "type" = some (.text "match_block_create") ∨
    r.lookup "type" = some (.text "match_param_set")

instance : DecidablePred Record.IsSshd := fun _ => inferInstanceAs (Decidable (_ ∨ _))

variable {r r' : Record} {c c' : Call}

/-! ## Tables -/

/-- The tag of the records that show calls of a kind. Reloading is in no record. -/
def CallKind.tag : CallKind → String
  | .pamAllow => "pam_allow"
  | .firewallAllow => "firewall_allow"
  | .wrapperAllow => "tcpwrapper_allow"
  | .appendAllowList => "domain_append"
  | .createMatchBlock => "match_block_create"
  | .setParameter => "match_param_set"
  | .reload => ""

theorem CallKind.tag_inj : ∀ {k k' : CallKind}, k.tag = k'.tag → k = k' := by
  intro k k' h
  cases k <;> cases k' <;> simp [tag] at h ⊢

theorem Mirrors.lookup_type (h : Mirrors r c) : r.lookup "type" = some (.text c.kind.tag) := by
  cases h <;> rfl

theorem Mirrors.isSshd_iff (h : Mirrors r c) :
    Record.IsSshd r ↔ c.kind = .createMatchBlock ∨ c.kind = .setParameter := by
  rw [Record.IsSshd, h.lookup_type]
  cases h <;> simp [CallKind.tag]

theorem Mirrors.call_eq (h : Mirrors r c) (h' : Mirrors r' c') (hr : r = r') : c = c' := by
  have ht : some (Value.text c.kind.tag) = some (.text c'.kind.tag) := by
    rw [← h.lookup_type, ← h'.lookup_type, hr]
  have hk := CallKind.tag_inj (Value.text.inj (Option.some.inj ht))
  -- two kinds have two tags, so one case is left for each kind
  cases h <;> cases h' <;> cases hk <;> cases hr <;> rfl

theorem mirrors_iff_record? : Mirrors r c ↔ c.record? = some r := by
  constructor
  · intro h
    cases h <;> rfl
  · intro h
    unfold Call.record? at h
    split at h <;> cases h <;> constructor

/-- **A record and a call determine each other.** -/
theorem Mirrors.biUnique : Relator.BiUnique Mirrors := by
  constructor
  · intro r r' c h h'
    rw [mirrors_iff_record?] at h h'
    exact Option.some.inj (h.symm.trans h')
  · intro r c c' h h'
    exact h.call_eq h' rfl

/-! ## Operations -/

namespace Operation

@[simp] theorem plainAll_texts (ss : List String) : plainAll (ss.map .text) = ss.map .text := by
  induction ss with
  | nil => rfl
  | cons s ss ih => simp [plainAll, plain, ih]

@[simp] theorem plain_texts (ss : List String) : plain (.tuple (ss.map .text)) = .list (ss.map .text) := by
  rw [plain, plainAll_texts]

@[simp] theorem plain_toValue (d : Directive) : plain d.toValue = d.listed := by
  cases d with
  | word => rfl
  | words ss => exact plain_texts ss

/-- **The record of an operation mirrors its call**, as a recorder notes it. -/
theorem WellTyped.exists_mirrors {op : Operation} (h : op.WellTyped) :
    ∃ record call, op.record = .ok record ∧ op.call = .ok call ∧ Mirrors record call.noted ∧
      (Record.IsSshd record ↔ op.changesSshd = true) := by
  suffices hm : ∃ record call, op.record = .ok record ∧ op.call = .ok call ∧
      Mirrors record call.noted ∧
      ((call.kind = .createMatchBlock ∨ call.kind = .setParameter) ↔ op.changesSshd = true) by
    obtain ⟨record, call, hr, hc, hm, hs⟩ := hm
    exact ⟨record, call, hr, hc, hm, hm.isSshd_iff.trans hs⟩
  cases h with
  | domainAppend domain kind items =>
    refine ⟨_, _, rfl, rfl, ?_, by simp [changesSshd, header?]⟩
    rw [plain_texts]
    constructor
  | matchParamSet criteria pattern position directive value =>
    have hc := (Asks.matchParamSet criteria pattern position directive value).call_eq
    refine ⟨_, _, rfl, hc, ?_, by simp [changesSshd, header?]⟩
    rw [plain_toValue]
    constructor
  | _ => exact ⟨_, _, rfl, rfl, by constructor, by simp [changesSshd, header?]⟩

end Operation

/-! ## Plans -/

namespace Plan

variable {p : Plan}

theorem exists_mirrors (h : ∀ op ∈ p, op.WellTyped) :
    ∃ records calls, p.records = .ok records ∧ p.mapM Operation.call = .ok calls ∧
      List.Forall₂ Mirrors records (calls.map Call.noted) ∧
      ((∃ record ∈ records, Record.IsSshd record) ↔ p.any Operation.changesSshd = true) := by
  induction p with
  | nil => exact ⟨[], [], rfl, rfl, .nil, by simp⟩
  | cons op p ih =>
    obtain ⟨record, call, hr, hc, hm, hs⟩ := (h op List.mem_cons_self).exists_mirrors
    obtain ⟨records, calls, hrs, hcs, hms, hss⟩ := ih fun o ho => h o (List.mem_cons_of_mem _ ho)
    refine ⟨record :: records, call :: calls, ?_, ?_, .cons hm hms, by simp [hs, hss]⟩
    · exact Outcome.mapM_ok_iff.2 (.cons hr (Outcome.mapM_ok_iff.1 hrs))
    · exact Outcome.mapM_ok_iff.2 (.cons hc (Outcome.mapM_ok_iff.1 hcs))

/-- **The records of a plan and the calls that a new recorder notes mirror each other**, and the records can be
read off the calls. The recorder is asked for one reload if a record is that of an operation on sshd. -/
theorem records_mirror_calls (h : ∀ op ∈ p, op.WellTyped) :
    ∃ (records : List Record) (calls : List Call), p.records = .ok records ∧
      Recorder.empty.apply none p =
        (⟨calls, if ∃ record ∈ records, Record.IsSshd record then 1 else 0⟩, .ok p.length) ∧
      List.Forall₂ Mirrors records calls ∧ calls.mapM Call.record? = some records ∧
      Relator.BiUnique Mirrors := by
  obtain ⟨records, calls, hrs, hcs, hms, hss⟩ := exists_mirrors h
  refine ⟨records, calls.map Call.noted, hrs, ?_, hms, ?_, Mirrors.biUnique⟩
  · rw [Recorder.apply_none _ hcs]
    simp [Recorder.empty, hss]
  · rw [mapM_some_iff]
    exact hms.flip.imp fun _ _ hm => mirrors_iff_record?.1 hm

/-- A parameter with two words, and an address. -/
def mixed : Plan := [
  .matchParamSet ⟨.address, .text "10.0.0.1", .text "end"⟩ (.text "AllowUsers")
    (.tuple [.text "a", .text "b"]),
  .tcpWrapperAllow (.text "10.0.0.1") (.text "sshd")]

def mixedRecords : List Record := [
  [("type", .text "match_param_set"), ("block", .text "Address 10.0.0.1"),
    ("directive", .text "AllowUsers"), ("value", .list [.text "a", .text "b"])],
  [("type", .text "tcpwrapper_allow"), ("address", .text "10.0.0.1"), ("service", .text "sshd")]]

/-- The calls for them are noted in order, and sshd is reloaded for the parameter. -/
theorem records_mirror_calls_mixed : (∀ op ∈ mixed, op.WellTyped) ∧
    mixed.records = .ok mixedRecords ∧ ∃ calls, List.Forall₂ Mirrors mixedRecords calls ∧
      Recorder.empty.apply none mixed = (⟨calls, 1⟩, .ok 2) := by
  have hw : ∀ op ∈ mixed, op.WellTyped := by
    have hset := Operation.WellTyped.matchParamSet .address "10.0.0.1" "end" "AllowUsers"
      (.words ["a", "b"])
    have hallow := Operation.WellTyped.tcpWrapperAllow "10.0.0.1" "sshd"
    intro op hop
    simp only [mixed, List.mem_cons, List.not_mem_nil, or_false] at hop
    rcases hop with rfl | rfl
    · exact hset
    · exact hallow
  have hr : mixed.records = .ok mixedRecords := rfl
  obtain ⟨records, calls, hrs, happly, hms, -⟩ := records_mirror_calls hw
  cases hr.symm.trans hrs
  have hs : ∃ record ∈ mixedRecords, Record.IsSshd record := by decide
  refine ⟨hw, hr, calls, hms, ?_⟩
  rw [happly, if_pos hs]
  rfl

end Plan

end AccessPlan
