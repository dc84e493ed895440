import AccessPlan.Proofs.Fanout
import Mathlib

/-!
# No grant too many and none too few

`Plan.GrantsEachPair p s r`: the plan `p` opens with one grant for every subject and every host of the
request, groups before users, and holds no other; one firewall rule and one wrapper rule for every host
follow. A host that is listed twice is granted twice, and a subject never is.

* `getElem?_flatMap_map`: a walk through two lists, by places.
* `Request.countP_grants`: how often one subject is granted access from one host.
* `Settings.compile_grantsEachPair`: every plan of a built request grants each pair.
-/

set_option autoImplicit false

namespace AccessPlan

/-- Whether an operation grants a subject access from a host. -/
def Operation.isGrant (kind : SubjectKind) (subject host : String) : Operation → Bool
  | .pamAllow k s origin _ _ => k == kind && (s.same (.text subject) && origin.same (.text host))
  | _ => false

/-- The grants and the rules of the hosts are those that the request asks for. -/
structure Plan.GrantsEachPair (p : Plan) (s : Settings) (r : Request) : Prop where
  /-- The grants stand first, one for each subject and host. -/
  pam : p.ofKind .pamAllow = p.take ((r.groups.length + r.users.length) * r.hosts.length)
  groups : ∀ i j (hi : i < r.groups.length) (hj : j < r.hosts.length),
    p[i * r.hosts.length + j]? = some (.pamAllow .group (.text r.groups[i]) (.text r.hosts[j])
      (s.read "pam.permission") (s.read "pam.position"))
  users : ∀ i j (hi : i < r.users.length) (hj : j < r.hosts.length),
    p[(r.groups.length + i) * r.hosts.length + j]? =
      some (.pamAllow .user (.text r.users[i]) (.text r.hosts[j])
        (s.read "pam.permission") (s.read "pam.position"))
  /-- The firewall rules follow, one for each host. -/
  firewall : p.ofKind .firewallAllow =
    (p.drop ((r.groups.length + r.users.length) * r.hosts.length)).take r.hosts.length
  sources : ∀ j (hj : j < r.hosts.length), ∃ label port,
    p[(r.groups.length + r.users.length) * r.hosts.length + j]? =
      some (.firewallAllow (.text r.hosts[j]) (.text label) (.int port)
        (s.read "firewall.protocol") (s.read "firewall.action"))
  /-- The wrapper rules follow, one for each host. -/
  wrapper : p.ofKind .tcpWrapperAllow =
    (p.drop ((r.groups.length + r.users.length) * r.hosts.length + r.hosts.length)).take
      r.hosts.length
  addresses : ∀ j (hj : j < r.hosts.length),
    p[(r.groups.length + r.users.length) * r.hosts.length + r.hosts.length + j]? =
      some (.tcpWrapperAllow (.text r.hosts[j]) (s.read "tcpwrapper.service"))
  /-- A pair is granted as often as its host is listed, and only if its subject is. -/
  count : ∀ kind subject host, p.countP (Operation.isGrant kind subject host) =
    if subject ∈ r.subjects kind then r.hosts.count host else 0

/-! ## Walks through two lists -/

section
variable {α β γ : Type}

/-- The pair at a place: the outer walk has made `i` whole turns and the inner one `j` steps. -/
theorem getElem?_flatMap_map (f : α → β → γ) {xs : List α} {ys : List β} {i j : Nat}
    (hi : i < xs.length) (hj : j < ys.length) :
    (xs.flatMap fun x => ys.map (f x))[i * ys.length + j]? = some (f xs[i] ys[j]) := by
  induction xs generalizing i with
  | nil => simp at hi
  | cons x xs ih =>
    rw [List.flatMap_cons]
    cases i with
    | zero =>
      rw [List.getElem?_append_left (by simpa using hj)]
      simp [hj]
    | succ i =>
      have hn : (i + 1) * ys.length + j = ys.length + (i * ys.length + j) := by
        rw [Nat.succ_mul]
        omega
      rw [hn, List.getElem?_append_right (by simp), List.length_map, Nat.add_sub_cancel_left,
        ih (by simpa using hi)]
      rfl

end

/-! ## Counting -/

namespace Request

variable {s : Settings} {r : Request}

@[simp] theorem length_grants (kind : SubjectKind) :
    (r.grants s kind).length = (r.subjects kind).length * r.hosts.length := by
  simp [grants, List.length_flatMap]

/-- The grants of one subject name the pair as often as its host is listed, or never. -/
theorem countP_grants_one (k kind : SubjectKind) (name subject host : String) :
    (r.hosts.map fun h => Operation.pamAllow k (.text name) (.text h) (s.read "pam.permission")
      (s.read "pam.position")).countP (Operation.isGrant kind subject host) =
      if k = kind ∧ name = subject then r.hosts.count host else 0 := by
  rw [List.countP_map, List.count]
  split
  · rename_i h
    exact List.countP_congr fun g _ => by simp [Operation.isGrant, h]
  · rename_i h
    refine List.countP_eq_zero.2 fun g _ hg => h ?_
    simp only [Function.comp_apply, Operation.isGrant, Value.same_text, Bool.and_eq_true,
      beq_iff_eq] at hg
    exact ⟨hg.1, hg.2.1⟩

/-- **How often a pair is granted**: once for every place of its host, if the subject is listed. -/
theorem countP_grants (hr : r.Valid) (k kind : SubjectKind) (subject host : String) :
    (r.grants s k).countP (Operation.isGrant kind subject host) =
      if k = kind ∧ subject ∈ r.subjects k then r.hosts.count host else 0 := by
  have hd := hr.nodup_subjects k
  unfold grants
  generalize r.subjects k = subjects at hd ⊢
  induction subjects with
  | nil => simp
  | cons name names ih =>
    obtain ⟨hn, hd⟩ := List.nodup_cons.1 hd
    rw [List.flatMap_cons, List.countP_append, countP_grants_one, ih hd]
    by_cases hs : name = subject
    · subst hs
      simp [hn]
    · simp [hs, Ne.symm hs]

end Request

/-! ## Plans -/

namespace Sections.Of

variable {x : Sections} {s : Settings} {r : Request} {catalogue : Value}

theorem length_pam (h : x.Of s r.draft catalogue) :
    x.pam.length = (r.groups.length + r.users.length) * r.hosts.length := by
  rw [h.pam_eq, List.length_append, Request.length_grants, Request.length_grants, Nat.add_mul]
  rfl

theorem length_wrapper (h : x.Of s r.draft catalogue) : x.wrapper.length = r.hosts.length := by
  rw [h.wrapper_eq, List.length_map]

theorem length_firewall (h : x.Of s r.draft catalogue) : x.firewall.length = r.hosts.length :=
  h.firewall_host.length_eq.symm

/-- Only the grants count. -/
theorem countP_plan (h : x.Of s r.draft catalogue) (hr : r.Valid) (known : List Value)
    (kind : SubjectKind) (subject host : String) :
    (x.plan known).countP (Operation.isGrant kind subject host) =
      if subject ∈ r.subjects kind then r.hosts.count host else 0 := by
  have hk : ∀ op : Operation, op.isGrant kind subject host = true →
      (op.kind? == some .pamAllow) = true := by
    intro op hop
    cases op with
    | pamAllow => rfl
    | _ => cases hop
  have hp : (x.plan known).countP (Operation.isGrant kind subject host) =
      ((x.plan known).ofKind .pamAllow).countP (Operation.isGrant kind subject host) := by
    rw [Plan.ofKind, List.countP_filter]
    refine List.countP_congr fun op _ => ?_
    rw [Bool.and_eq_true]
    exact ⟨fun hop => ⟨hop, hk op hop⟩, And.left⟩
  rw [hp, h.ofKind_plan known .pamAllow (by decide) (by decide), part, h.pam_eq, List.countP_append,
    Request.countP_grants hr, Request.countP_grants hr]
  cases kind <;> simp

theorem grantsEachPair (h : x.Of s r.draft catalogue) (hr : r.Valid) (known : List Value) :
    (x.plan known).GrantsEachPair s r := by
  have hp : x.plan known =
      x.pam ++ (x.firewall ++ (x.wrapper ++ (x.domains ++ x.rear known))) := by
    simp only [plan, front, List.append_assoc]
  have hpam := h.length_pam
  have hfw := h.length_firewall
  have hwr := h.length_wrapper
  have found {l l' : Plan} {i : Nat} {op : Operation} (hi : l[i]? = some op) :
      (l ++ l')[i]? = some op := by
    rw [List.getElem?_append_left (List.getElem?_eq_some_iff.1 hi).1, hi]
  have later (l l' : Plan) (i : Nat) : (l ++ l')[l.length + i]? = l'[i]? := by
    rw [List.getElem?_append_right (Nat.le_add_right _ _), Nat.add_sub_cancel_left]
  constructor
  case pam =>
    rw [h.ofKind_plan known .pamAllow (by decide) (by decide), hp, ← hpam, List.take_left]
    rfl
  case groups =>
    intro i j hi hj
    rw [hp, h.pam_eq]
    exact found (found (getElem?_flatMap_map _ hi hj))
  case users =>
    intro i j hi hj
    have hg : (r.groups.length + i) * r.hosts.length + j =
        (r.grants s .group).length + (i * r.hosts.length + j) := by
      rw [Request.length_grants, Nat.add_mul, Nat.add_assoc]
      rfl
    rw [hp, h.pam_eq]
    refine found ?_
    rw [hg, later]
    exact getElem?_flatMap_map _ hi hj
  case firewall =>
    rw [h.ofKind_plan known .firewallAllow (by decide) (by decide), hp, ← hpam,
      List.drop_left, ← hfw, List.take_left]
    rfl
  case sources =>
    intro j hj
    have hj' : j < x.firewall.length := by omega
    obtain ⟨label, port, he⟩ := (List.forall₂_iff_get.1 h.firewall_host).2 j hj hj'
    refine ⟨label, port, ?_⟩
    rw [hp, ← hpam, later]
    refine found ?_
    rw [List.getElem?_eq_getElem hj']
    exact congrArg some he
  case wrapper =>
    rw [h.ofKind_plan known .tcpWrapperAllow (by decide) (by decide), hp, ← hpam, ← List.drop_drop,
      List.drop_left, ← hfw, List.drop_left, hfw, ← hwr, List.take_left]
    rfl
  case addresses =>
    intro j hj
    rw [hp, ← hpam, Nat.add_assoc, later, ← hfw, later]
    refine found ?_
    rw [h.wrapper_eq, List.getElem?_map, List.getElem?_eq_getElem hj]
    rfl
  case count => exact h.countP_plan hr known

end Sections.Of

/-- **A plan grants each pair of the request and no other.** Whatever the settings, the source of domains
and the known blocks are, a plan that was compiled for a built request opens with its grants, and how often a
pair is granted is how often its host is listed. -/
theorem Settings.compile_grantsEachPair {route : Request.Route} {arguments : Mapping}
    {label : Option String} {r : Request} (hr : Request.build route arguments label = .ok r)
    {s : Settings} {source : DomainSource} {existing : Value} {p : Plan}
    (h : (s.compile r.draft source existing).result = .ok p) : p.GrantsEachPair s r := by
  obtain ⟨-, catalogue, x, known, -, hx, -, rfl⟩ := compile_ok_iff.1 h
  exact hx.grantsEachPair (Request.valid_of_build hr) known

/-- A host and a user that are listed twice, and a group. -/
def repeatsArguments : Mapping := [
  (.text "hostlist", .list [.text "bastion", .text "10.0.0.5", .text "bastion"]),
  (.text "users", .list [.text "alice", .text "bob", .text "alice"]),
  (.text "groups", .text "wheel")]

/-- The request that they make. -/
def repeats : Request :=
  ⟨"sshd", ["bastion", "10.0.0.5", "bastion"], ["alice", "bob"], ["wheel"], []⟩

/-- The host that is listed twice is granted twice to the user that is listed twice, and somebody who is not
listed is granted nothing. -/
theorem compile_repeats_grants : Request.build .builder repeatsArguments none = .ok repeats ∧
    ∃ p, ((Settings.ofTree []).compile repeats.draft (.given (.text "prod"))
        (.list [.text "Host bastion,bastion"])).result = .ok p ∧
      p.GrantsEachPair (Settings.ofTree []) repeats ∧
      p.countP (Operation.isGrant .user "alice" "bastion") = 2 ∧
      p.countP (Operation.isGrant .group "alice" "bastion") = 0 := by
  have hr : Request.build .builder repeatsArguments none = .ok repeats := by decide
  obtain ⟨p, h⟩ : ∃ p, ((Settings.ofTree []).compile repeats.draft (.given (.text "prod"))
      (.list [.text "Host bastion,bastion"])).result = .ok p := Outcome.exists_ok (by cbv)
  have hp := Settings.compile_grantsEachPair hr h
  refine ⟨hr, p, h, hp, ?_, ?_⟩
  · rw [hp.count]
    decide
  · rw [hp.count]
    decide

end AccessPlan
