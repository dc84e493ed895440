import AccessPlan.Proofs.Calls
import Mathlib.Data.List.Induction

/-!
# The course of an application

Collaborators may refuse a call for what it is and for the calls before it. `Plan.Ends crew p course` says what
an application of `p` then comes to: it stops at the first operation that has no collaborator or whose
call is refused, and sshd is reloaded only after all operations, if one of them was about sshd.

* `Plan.applyFrom_append`: after operations whose calls were accepted, the application goes on with the rest.
* `Plan.exists_ends`: operations are done one after another, up to the first that fails or to the end.
* `Plan.applyTo_iff_ends`: an application takes the course that `Plan.Ends` says, and no other.
-/

set_option autoImplicit false

namespace AccessPlan

variable {crew : Crew} {before calls : List Call} {call : Call} {p q : Plan} {op : Operation}

/-! ## Accepted calls -/

/-- The collaborators accept calls one after another, the first of them after those in `before`. -/
def Crew.Accepts (crew : Crew) (before : List Call) : List Call → Prop
  | [] => True
  | call :: calls => crew before call = none ∧ crew.Accepts (before ++ [call]) calls

theorem Crew.accepts_concat : crew.Accepts before (calls ++ [call]) ↔
    crew.Accepts before calls ∧ crew (before ++ calls) call = none := by
  induction calls generalizing before with
  | nil => simp [Accepts]
  | cons c calls ih => simp [Accepts, ih, and_assoc]

theorem Crew.accepts_of_forall (h : ∀ before call, crew before call = none) (before calls : List Call) :
    crew.Accepts before calls := by
  induction calls generalizing before with
  | nil => trivial
  | cons c calls ih => exact ⟨h _ _, ih _⟩

/-! ## Courses -/

namespace Plan

/-- The operations were done: each has asked for its call, and all of the calls were accepted. -/
def Done (crew : Crew) (p : Plan) (calls : List Call) : Prop :=
  List.Forall₂ Operation.Asks p calls ∧ crew.Accepts [] calls

/-- What an application comes to. -/
inductive Ends (crew : Crew) (p : Plan) : Course → Prop
  /-- An object that is no operation ends it, after the operations before it. -/
  | foreign {first rest : Plan} {object : Foreign} {calls : List Call} :
    p = first ++ .foreign object :: rest → Done crew first calls →
    Ends crew p ⟨calls, none, .error (.unsupported object.kind)⟩
  /-- A call that is refused ends it, with the fault of the collaborator. -/
  | refused {first rest : Plan} {op : Operation} {calls : List Call} {call : Call} {fault : Fault} :
    p = first ++ op :: rest → Done crew first calls → op.Asks call → crew calls call = some fault →
    Ends crew p ⟨calls, some call, .error fault⟩
  /-- No operation was about sshd. -/
  | quiet {calls : List Call} : Done crew p calls → (¬ ∃ op ∈ p, op.IsSshd) →
    Ends crew p ⟨calls, none, .ok p.length⟩
  | reloaded {calls : List Call} : Done crew p calls → (∃ op ∈ p, op.IsSshd) →
    crew calls .reload = none → Ends crew p ⟨calls ++ [.reload], none, .ok p.length⟩
  | reloadRefused {calls : List Call} {fault : Fault} : Done crew p calls → (∃ op ∈ p, op.IsSshd) →
    crew calls .reload = some fault → Ends crew p ⟨calls, some .reload, .error fault⟩

/-! ## Steps and runs -/

theorem applyFrom_cons (hcall : op.call = .ok call) (changed : Bool) (count : Nat)
    (before : List Call) (rest : Plan) :
    applyFrom crew changed count before (op :: rest) = crew.ask before call fun before =>
      applyFrom crew (op.changesSshd || changed) (count + 1) before rest := by
  simp only [applyFrom, hcall]

/-- **After operations whose calls were accepted**, an application goes on with the rest. It remembers whether
one of them was about sshd, and how many there were. -/
theorem applyFrom_append (hp : p.mapM Operation.call = .ok calls) (changed : Bool) (count : Nat)
    (hc : crew.Accepts before calls) (rest : Plan) :
    applyFrom crew changed count before (p ++ rest) =
      applyFrom crew (p.any Operation.changesSshd || changed) (count + p.length) (before ++ calls)
        rest := by
  induction p generalizing changed count before calls with
  | nil =>
    cases Outcome.mapM_ok_iff.1 hp
    simp
  | cons op p ih =>
    cases Outcome.mapM_ok_iff.1 hp with
    | cons hcall hcalls =>
      have hp := Outcome.mapM_ok_iff.2 hcalls
      obtain ⟨haccept, hc⟩ := hc
      rw [List.cons_append, applyFrom_cons hcall, Crew.ask, haccept]
      show applyFrom _ _ _ _ (p ++ rest) = _
      rw [ih hp _ _ hc]
      -- the flag is set by the head before the tail, and `any` asks the tail after the head
      simp [Bool.or_left_comm, Bool.or_comm, Nat.add_left_comm, Nat.add_comm]

theorem applyTo_append (hp : p.mapM Operation.call = .ok calls) (hc : crew.Accepts [] calls)
    (rest : Plan) : (p ++ rest).applyTo crew =
      applyFrom crew (p.any Operation.changesSshd) p.length calls rest := by
  unfold applyTo
  rw [applyFrom_append hp false 0 hc]
  simp

theorem Done.mapM (h : Done crew p calls) : p.mapM Operation.call = .ok calls :=
  Outcome.mapM_ok_iff.2 (h.1.imp fun _ _ ha => ha.call_eq)

theorem Done.applyTo (h : Done crew p calls) :
    p.applyTo crew = finish crew (p.any Operation.changesSshd) p.length calls := by
  have := applyTo_append h.mapM h.2 []
  rwa [List.append_nil] at this

theorem Done.concat (h : Done crew p calls) (ha : op.Asks call) (hc : crew calls call = none) :
    Done crew (p ++ [op]) (calls ++ [call]) :=
  ⟨List.rel_append h.1 (.cons ha .nil), Crew.accepts_concat.2 ⟨h.2, hc⟩⟩

@[simp] theorem finish_changed (crew : Crew) (count : Nat) (calls : List Call) :
    finish crew true count calls =
      crew.ask calls .reload fun calls => ⟨calls, none, .ok count⟩ := rfl

/-- **An application takes the course that is said**, once one is. -/
theorem Ends.applyTo_eq {course : Course} (h : Ends crew p course) : p.applyTo crew = course := by
  cases h with
  | foreign hp hd =>
    rw [hp, applyTo_append hd.mapM hd.2]
    rfl
  | refused hp hd ha hr =>
    rw [hp, applyTo_append hd.mapM hd.2, applyFrom_cons ha.call_eq, Crew.ask, hr]
  | quiet hd hs =>
    have hany : p.any Operation.changesSshd = false := by
      rw [← Bool.not_eq_true, Operation.any_changesSshd_iff]
      exact hs
    rw [hd.applyTo, hany]
    rfl
  | reloaded hd hs hr =>
    rw [hd.applyTo, (Operation.any_changesSshd_iff p).2 hs, finish_changed, Crew.ask, hr]
  | reloadRefused hd hs hr =>
    rw [hd.applyTo, (Operation.any_changesSshd_iff p).2 hs, finish_changed, Crew.ask, hr]

/-- All operations are done, or the first that fails has ended the application. -/
theorem done_or_ends (crew : Crew) (h : ∀ op ∈ p, op.WellTyped ∨ ∃ object, op = .foreign object) :
    (∃ calls, Done crew p calls) ∨ ∃ course, ∀ rest, Ends crew (p ++ rest) course := by
  -- from the right, so that the calls before the last operation are those of all the others
  induction p using List.reverseRecOn with
  | nil => exact .inl ⟨[], .nil, trivial⟩
  | append_singleton p op ih =>
    obtain ⟨calls, hd⟩ | ⟨course, he⟩ := ih fun o ho => h o (List.mem_append_left _ ho)
    · rcases h op (by simp) with hw | ⟨object, rfl⟩
      · obtain ⟨call, ha⟩ := hw.exists_asks
        rcases hc : crew calls call with _ | fault
        · exact .inl ⟨_, hd.concat ha hc⟩
        · exact .inr ⟨_, fun rest => .refused (List.append_assoc p [op] rest) hd ha hc⟩
      · exact .inr ⟨_, fun rest => .foreign (List.append_assoc p [_] rest) hd⟩
    · refine .inr ⟨course, fun rest => ?_⟩
      rw [List.append_assoc]
      exact he _

theorem exists_ends (crew : Crew) (h : ∀ op ∈ p, op.WellTyped ∨ ∃ object, op = .foreign object) :
    ∃ course, Ends crew p course := by
  rcases done_or_ends crew h with ⟨calls, hd⟩ | ⟨course, he⟩
  · by_cases hs : ∃ op ∈ p, op.IsSshd
    · rcases hr : crew calls .reload with _ | fault
      · exact ⟨_, .reloaded hd hs hr⟩
      · exact ⟨_, .reloadRefused hd hs hr⟩
    · exact ⟨_, .quiet hd hs⟩
  · have := he []
    rw [List.append_nil] at this
    exact ⟨course, this⟩

/-- **An application stops where it fails and reloads sshd only at the end**: whatever the collaborators
refuse, it takes the course that `Ends` says, and no other. -/
theorem applyTo_iff_ends (h : ∀ op ∈ p, op.WellTyped ∨ ∃ object, op = .foreign object)
    (crew : Crew) (course : Course) : p.applyTo crew = course ↔ Ends crew p course := by
  constructor
  · intro hc
    obtain ⟨c, he⟩ := exists_ends crew h
    rw [← hc, he.applyTo_eq]
    exact he
  · exact Ends.applyTo_eq

/-- A parameter, and after it one address twice. -/
def twice : Plan := [
  .matchParamSet ⟨.host, .text "a", .text "end"⟩ (.text "Port") (.text "22"),
  .tcpWrapperAllow (.text "10.0.0.1") (.text "sshd"),
  .tcpWrapperAllow (.text "10.0.0.1") (.text "sshd")]

def portCall : Call where
  kind := .setParameter
  arguments := [.text "Host a", .text "Port", .text "22"]
  block := some ⟨.host, .text "a", .text "end"⟩

def addressCall : Call where
  kind := .wrapperAllow
  arguments := [.text "sshd", .text "10.0.0.1"]

/-- A collaborator that takes an address once ends the application at the second time. Sshd is not reloaded,
though a parameter was set. -/
theorem applyTo_twice : (∀ op ∈ twice, op.WellTyped ∨ ∃ object, op = .foreign object) ∧
    twice.applyTo (Recorder.crew (some ⟨.wrapperAllow, 1, "known"⟩)) =
      ⟨[portCall, addressCall], some addressCall, .error (.refused "known")⟩ := by
  have hset : (Operation.matchParamSet ⟨.host, .text "a", .text "end"⟩ (.text "Port")
      (.text "22")).Asks portCall := .matchParamSet .host "a" "end" "Port" (.word "22")
  have hallow : (Operation.tcpWrapperAllow (.text "10.0.0.1") (.text "sshd")).Asks addressCall :=
    .tcpWrapperAllow "10.0.0.1" "sshd"
  have hw : ∀ op ∈ twice, op.WellTyped ∨ ∃ object, op = .foreign object := by
    have hport := Operation.WellTyped.matchParamSet .host "a" "end" "Port" (.word "22")
    have haddress := Operation.WellTyped.tcpWrapperAllow "10.0.0.1" "sshd"
    intro op hop
    simp only [twice, List.mem_cons, List.not_mem_nil, or_false] at hop
    rcases hop with rfl | rfl | rfl
    · exact .inl hport
    · exact .inl haddress
    · exact .inl haddress
  have hdone : Done (Recorder.crew (some ⟨.wrapperAllow, 1, "known"⟩)) (twice.take 2)
      [portCall, addressCall] := ⟨.cons hset (.cons hallow .nil), by decide, by decide, trivial⟩
  have hsplit : twice = twice.take 2 ++ [.tcpWrapperAllow (.text "10.0.0.1") (.text "sshd")] := rfl
  exact ⟨hw, (applyTo_iff_ends hw _ _).2 (.refused hsplit hdone hallow rfl)⟩

end Plan

end AccessPlan
