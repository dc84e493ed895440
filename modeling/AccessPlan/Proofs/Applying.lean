import AccessPlan.Proofs.Courses
import AccessPlan.Proofs.Keys

/-!
# Applying a plan

Collaborators that accept every call are asked for the call of every operation, in order, and sshd is reloaded
after that if one of the calls went to it. Every rule of a request stands for a call, and every block of it
has a parameter; so a request that was built compiles with the default settings, and its plan is applied as
a whole.

* `Plan.applyTo_accepted`: the course of an application in which nothing is refused.
* `Recorder.apply_none`: what a recorder has written down after it.
* `compile_applies`: a built request compiles to a plan that applies, with and without its repeats.
-/

set_option autoImplicit false

namespace AccessPlan

/-! ## Applications in which nothing is refused -/

namespace Plan

variable {crew : Crew} {p : Plan} {calls : List Call}

/-- **An application in which nothing is refused** makes the call of every operation, and reloads sshd at the
end if one of them changes its configuration. -/
theorem applyTo_accepted (hc : ∀ before call, crew before call = none)
    (h : p.mapM Operation.call = .ok calls) :
    p.applyTo crew =
      ⟨calls ++ (if p.any Operation.changesSshd then [.reload] else []), none, .ok p.length⟩ := by
  have happly := applyTo_append h (Crew.accepts_of_forall hc [] calls) []
  rw [List.append_nil] at happly
  rw [happly]
  simp only [applyFrom, finish]
  split
  · simp only [Crew.ask, hc]
  · rw [List.append_nil]

end Plan

/-! ## Recording -/

theorem Operation.kind_call_ne {op : Operation} {call : Call} (h : op.call = .ok call) :
    call.kind ≠ .reload := by
  cases op with
  | pamAllow | firewallAllow | tcpWrapperAllow | matchBlockCreate =>
    cases h
    exact CallKind.noConfusion
  | domainAppend | matchParamSet =>
    obtain ⟨_, -, hc⟩ := Outcome.bind_ok_iff.1 h
    cases hc
    exact CallKind.noConfusion
  | foreign => cases h

/-- **A recorder that refuses nothing** notes the call of every operation, and counts a reload if one of them
changes the configuration of sshd. -/
theorem Recorder.apply_none (r : Recorder) {p : Plan} {calls : List Call}
    (h : p.mapM Operation.call = .ok calls) : r.apply none p =
      (⟨r.calls ++ calls.map Call.noted, r.reloads + if p.any Operation.changesSshd then 1 else 0⟩,
        .ok p.length) := by
  have hkinds : ∀ call ∈ calls, call.kind ≠ .reload :=
    Outcome.forall_of_mapM h fun _ _ hcall => Operation.kind_call_ne hcall
  have hcalls : calls.filter (·.kind != .reload) = calls :=
    List.filter_eq_self.2 fun call hcall => bne_iff_ne.2 (hkinds call hcall)
  have hreloads : calls.filter (·.kind == .reload) = [] :=
    List.filter_eq_nil_iff.2 fun call hcall => by simpa using hkinds call hcall
  have hcourse : p.applyTo (crew none) = _ := Plan.applyTo_accepted (fun _ _ => rfl) h
  rw [apply, hcourse]
  simp only [record, List.filter_append, hcalls, hreloads]
  split <;> simp [Call.reload]

/-- A new recorder takes the whole plan, and is asked for one reload at the end. -/
structure Plan.Applies (p : Plan) : Prop where
  result : (Recorder.empty.apply none p).2 = .ok p.length
  calls : (Recorder.empty.apply none p).1.calls.length = p.length
  reloads : (Recorder.empty.apply none p).1.reloads = 1
  /-- There is a parameter to set. -/
  parameter : ∃ block directive value, .matchParamSet block directive value ∈ p

theorem Plan.applies_of_calls {p : Plan} (h : ∀ op ∈ p, ∃ call, op.call = .ok call)
    (hset : ∃ block directive value, .matchParamSet block directive value ∈ p) : p.Applies := by
  obtain ⟨calls, hcalls⟩ := Outcome.exists_mapM h
  have happly := Recorder.empty.apply_none hcalls
  have hany : p.any Operation.changesSshd = true := by
    obtain ⟨block, directive, value, hm⟩ := hset
    exact List.any_eq_true.2 ⟨_, hm, rfl⟩
  rw [hany, if_pos rfl] at happly
  constructor
  case result => rw [happly]
  case calls =>
    rw [happly]
    simp [Recorder.empty, (Outcome.mapM_ok_iff.1 hcalls).length_eq]
  case reloads => rw [happly]; rfl
  case parameter => exact hset

/-! ## Plans of requests -/

/-- Every rule stands for a call. -/
theorem Request.Rule.exists_call {s : Settings} {r : Request} {op : Operation} (h : r.Rule s op) :
    ∃ call, op.call = .ok call := by
  cases h <;> exact ⟨_, rfl⟩

/-- The parts of the default template. -/
def Label.defaultParts : List Label.Part :=
  "022 ".toList.map .literal ++ [.name] ++ " allow ssh from ".toList.map .literal ++ [.host]

theorem Settings.usable_defaults : (Settings.ofTree []).Usable Label.defaultParts where
  port := ⟨22, by cbv⟩
  service := ⟨"sshd", by cbv⟩
  template := by cbv

/-- A source that was given a text, or nothing. -/
def DomainSource.ofText? (raw : Option String) : DomainSource := .given ((raw.map .text).getD .null)

@[simp] theorem DomainSource.catalogue_ofText? (raw : Option String) :
    (DomainSource.ofText? raw).catalogue = .ok (.text (raw.getD "")) := by
  cases raw with
  | none => rfl
  | some raw => exact catalogue_text raw

/-- **What was validated compiles and applies.** With the default settings a built request compiles, whatever
the text of its catalogue is, if there is one, and whatever keys are known. Its plan applies, and so does
the plan without repeats. -/
theorem compile_applies {route : Request.Route} {arguments : Mapping} {label : Option String}
    {r : Request} (hr : Request.build route arguments label = .ok r) (raw : Option String)
    (keys : List String) :
    ∃ p u, ((Settings.ofTree []).compile r.draft (.ofText? raw) (.list (keys.map .text))).result =
        .ok p ∧ p.unique = .ok u ∧ p.Applies ∧ u.Applies := by
  have hv := Request.valid_of_build hr
  have hs := Settings.usable_defaults
  obtain ⟨x, hx, hp⟩ := hs.exists_compile hv (DomainSource.catalogue_ofText? raw)
    (Catalogue.domains_text _) (knownKeys_texts keys)
  obtain ⟨u, hu⟩ := hx.exists_condenses hs (by decide) hv (keys.map .text)
  have hcalls : ∀ op ∈ x.plan (keys.map .text), ∃ call, op.call = .ok call :=
    fun op hop => (hx.rule hop).exists_call
  obtain ⟨block, directive, value, hset⟩ := hx.exists_set hv (keys.map .text)
  refine ⟨_, u, hp, hu.unique, Plan.applies_of_calls hcalls ⟨_, _, _, hset⟩, ?_⟩
  exact Plan.applies_of_calls (fun op hop => hcalls op ((hu.mem op).1 hop))
    ⟨_, _, _, (hu.mem _).2 hset⟩

/-- A name and a host that look like places of a template, a user without a name, and a directive where the
allow list of the users goes. -/
def oddArguments : Mapping := [
  (.text "name", .text "\x7b0\x7d"),
  (.text "hostlist", .text "\x7bhost"),
  (.text "users", .list [.text "", .text "alice", .text ""]),
  (.text "sshd_options", .map [(.text "AllowUsers", .text "root")])]

/-- The request that they make. -/
def odd : Request :=
  ⟨"\x7b0\x7d", ["\x7bhost"], ["", "alice"], [], [("AllowUsers", .word "root")]⟩

/-- It compiles and applies without a catalogue, where its block is known and nothing is left to create. -/
theorem compile_odd_applies : Request.build .builder oddArguments none = .ok odd ∧
    ∃ p u, ((Settings.ofTree []).compile odd.draft (.ofText? none)
        (.list [.text "Host \x7bhost"])).result = .ok p ∧
      p.createdKeys = .ok [] ∧ p.unique = .ok u ∧ p.Applies ∧ u.Applies := by
  have hr : Request.build .builder oddArguments none = .ok odd := by decide
  have hcreated : ((Settings.ofTree []).compile odd.draft (.ofText? none)
      (.list [.text "Host \x7bhost"])).result >>= Plan.createdKeys = .ok [] := by cbv
  obtain ⟨q, hq, hcreated⟩ := Outcome.bind_ok_iff.1 hcreated
  obtain ⟨p, u, hp, hu⟩ := compile_applies hr none ["Host \x7bhost"]
  cases hq.symm.trans hp
  exact ⟨hr, _, u, hp, hcreated, hu⟩

end AccessPlan
