import AccessPlan.Proofs.AllowLists
import AccessPlan.Proofs.Valid
import Mathlib.Logic.Function.Iterate

/-!
# Asking for the domains

Whoever is asked for the identity domains may answer from a memory, and asking may change it (`Asking`).
`Settings.compileAsking` is the compilation that does the asking. It has the plan or fault of `Settings.compile`,
and asks as often as is counted there.

* `Settings.runFrom_compileAsking`: the outcome of both, and the memory that is left.
* `Draft.plan_congr`: a plan depends on a catalogue through the domains that it lists.
* `Settings.compile_asksOnce`: a draft that allows nobody is refused before anybody is asked; for any other
  draft somebody is asked once, whatever becomes of the plan.
-/

set_option autoImplicit false

namespace AccessPlan

/-! ## Computations beside a memory -/

/-- A computation that may change a memory. A fault does not undo the changes before it. -/
abbrev Asking (σ α : Type) := ExceptT Fault (StateM σ) α

namespace Asking

variable {σ α β : Type}

/-- What a computation comes to from a memory, and the memory that it leaves. -/
def runFrom (memory : σ) (x : Asking σ α) : Outcome α × σ :=
  (StateT.run (ExceptT.run x) memory).run

theorem runFrom_liftM (memory : σ) (x : Outcome α) :
    runFrom memory (liftM x : Asking σ α) = (x, memory) := rfl

theorem runFrom_bind (memory : σ) (x : Asking σ α) (f : α → Asking σ β) :
    runFrom memory (x >>= f) = match x.runFrom memory with
      | (.ok a, left) => (f a).runFrom left
      | (.error e, left) => (.error e, left) := by
  simp only [runFrom, ExceptT.run_bind, StateT.run_bind, Id.run_bind]
  rcases (StateT.run (ExceptT.run x) memory).run with ⟨_ | _, left⟩ <;> rfl

end Asking

/-- Compiles a draft; `ask` is how the domains are asked for. -/
def Settings.compileAsking {σ : Type} (s : Settings) (d : Draft) (ask : Asking σ Value)
    (existing : Value) : Asking σ Plan := do
  d.checkSubjects
  let catalogue ← ask
  d.plan s catalogue existing

section
variable {s : Settings} {d : Draft} {catalogue catalogue' existing : Value}

/-! ## Drafts that allow nobody, and others -/

theorem Draft.allowsNobody_iff : d.allowsNobody = true ↔
    d.users.isPresent = false ∧ d.groups.isPresent = false := by
  simp [allowsNobody]

theorem Draft.checkSubjects_error (h : d.allowsNobody = true) :
    d.checkSubjects = .error .emptySubjects := if_pos h

theorem Settings.compile_of_allowsNobody (h : d.allowsNobody = true) (source : DomainSource) :
    s.compile d source existing = ⟨.error .emptySubjects, 0⟩ := by
  simp only [compile, Draft.checkSubjects_error h]

theorem Settings.compile_of_allows (h : d.allowsNobody = false) (source : DomainSource) :
    s.compile d source existing = ⟨do d.plan s (← source.catalogue) existing,
      match source with | .given _ => 0 | .provider _ => 1⟩ := by
  have hc : d.checkSubjects = .ok () := Draft.checkSubjects_ok_iff.2 h
  simp only [compile, hc]
  cases source <;> rfl

/-- **The compilation that asks** has the outcome of the one that is given the answer, and asks as often as is
counted there. -/
theorem Settings.runFrom_compileAsking {σ : Type} (ask : Asking σ Value) (memory : σ) :
    (s.compileAsking d ask existing).runFrom memory =
      let compiled := s.compile d (.provider (ask.runFrom memory).1) existing
      (compiled.result, (fun memory => (ask.runFrom memory).2)^[compiled.providerReads] memory) := by
  unfold compileAsking
  rw [Asking.runFrom_bind, Asking.runFrom_liftM]
  cases h : d.allowsNobody with
  | true =>
    simp only [Draft.checkSubjects_error h, compile_of_allowsNobody h]
    rfl
  | false =>
    have hc : d.checkSubjects = .ok () := Draft.checkSubjects_ok_iff.2 h
    simp only [hc, compile_of_allows h, Asking.runFrom_bind, DomainSource.catalogue,
      Function.iterate_one]
    rcases ask.runFrom memory with ⟨_ | _, left⟩ <;> rfl

/-! ## Answers -/

/-- **A plan depends on a catalogue** through the domains that it lists. -/
theorem Draft.plan_congr (h : Catalogue.domains catalogue = Catalogue.domains catalogue') :
    d.plan s catalogue existing = d.plan s catalogue' existing := by
  simp only [plan, Catalogue.expand, h]

/-- A text, or nothing, lists the same domains whether it is an answer or is given outright. -/
theorem Catalogue.domains_catalogueOf {v : Value} (h : v = .null ∨ ∃ raw, v = .text raw) :
    domains (catalogueOf v) = domains v := by
  rcases h with rfl | ⟨raw, rfl⟩
  · rfl
  · rw [catalogueOf_text]

end

/-- A draft is refused, and nobody is asked. -/
structure RefusedUnasked (s : Settings) (d : Draft) (existing : Value) : Prop where
  compile : ∀ source, s.compile d source existing = ⟨.error .emptySubjects, 0⟩
  asking : ∀ {σ : Type} (ask : Asking σ Value) (memory : σ),
    (s.compileAsking d ask existing).runFrom memory = (.error .emptySubjects, memory)

/-- Whoever is asked is asked once, and what becomes of the plan depends on the answer only. -/
structure AskedOnce (s : Settings) (d : Draft) (existing : Value) : Prop where
  reads : ∀ answer, (s.compile d (.provider answer) existing).providerReads = 1
  /-- The memory is the one that a single call leaves, also where the compilation fails after it. -/
  asking : ∀ {σ : Type} (ask : Asking σ Value) (memory : σ),
    (s.compileAsking d ask existing).runFrom memory =
      ((s.compile d (.provider (ask.runFrom memory).1) existing).result, (ask.runFrom memory).2)
  given : ∀ v, v = .null ∨ (∃ raw, v = .text raw) →
    (s.compile d (.provider (.ok v)) existing).result = (s.compile d (.given v) existing).result
  refused : ∀ fault, (s.compile d (.provider (.error fault)) existing).result = .error fault

theorem refusedUnasked {d : Draft} (h : d.allowsNobody = true) (s : Settings) (existing : Value) :
    RefusedUnasked s d existing where
  compile := s.compile_of_allowsNobody h
  asking ask memory := by
    rw [Settings.runFrom_compileAsking, Settings.compile_of_allowsNobody h]
    rfl

theorem askedOnce {d : Draft} (h : d.allowsNobody = false) (s : Settings) (existing : Value) :
    AskedOnce s d existing where
  reads answer := by rw [s.compile_of_allows h]
  asking ask memory := by
    rw [Settings.runFrom_compileAsking, Settings.compile_of_allows h]
    rfl
  given v hv := by
    rw [s.compile_of_allows h, s.compile_of_allows h]
    exact Draft.plan_congr (Catalogue.domains_catalogueOf hv).symm
  refused fault := by
    rw [s.compile_of_allows h]
    rfl

/-- **The check of the subjects comes first, and the domains are asked for once.** A draft with any values that
allows nobody is refused for that, whatever settings, keys and providers there are. For any other draft whoever
is asked is asked once, and built requests are among these. -/
theorem Settings.compile_asksOnce (s : Settings) (existing : Value) :
    (∀ d : Draft, d.users.isPresent = false → d.groups.isPresent = false →
      RefusedUnasked s d existing) ∧
    (∀ d : Draft, d.users.isPresent = true ∨ d.groups.isPresent = true → AskedOnce s d existing) ∧
    (∀ route arguments label r, Request.build route arguments label = .ok r →
      AskedOnce s r.draft existing) ∧
    ∃ report, Fault.emptySubjects.report? = some report ∧ report.kind = .validation ∧
      report.message = .text "both users and groups empty" := by
  refine ⟨fun d hu hg => ?_, fun d h => ?_, fun route arguments label r hr => ?_, ?_⟩
  · exact refusedUnasked (Draft.allowsNobody_iff.2 ⟨hu, hg⟩) s existing
  · refine askedOnce (Bool.eq_false_iff.2 fun hn => ?_) s existing
    obtain ⟨hu, hg⟩ := Draft.allowsNobody_iff.1 hn
    simp [hu, hg] at h
  · exact askedOnce (Request.valid_of_build hr).allowsNobody_draft s existing
  · exact ⟨_, rfl, rfl, rfl⟩

/-- Somebody who answers once and refuses from then on. -/
def answersOnce : Asking Nat Value := do
  let asked ← get
  set (asked + 1)
  if asked = 0 then pure (.text "prod") else throw (.refused "asked again")

/-- A draft without hosts whose users and groups are two values that are not present. -/
def nobody : Draft := ⟨.null, none, .int 0, .text "", .null, false⟩

/-- A draft without hosts whose users cannot be walked through. -/
def unwalkable : Draft := { nobody with users := .int 5 }

/-- One draft asks nobody; one fails after it has asked; and a built request, which asks once, has the plan for the
answer. -/
theorem compile_answersOnce_asksOnce :
    (nobody.users.isPresent = false ∧ nobody.groups.isPresent = false ∧
      ((Settings.ofTree []).compileAsking nobody answersOnce (.list [])).runFrom 0 =
        (.error .emptySubjects, 0)) ∧
    (unwalkable.users.isPresent = true ∧
      ((Settings.ofTree []).compileAsking unwalkable answersOnce (.list [])).runFrom 0 =
        (.error (.misuse .notIterable), 1)) ∧
    Request.build .builder overridingArguments none = .ok overriding ∧
    ∃ p, ((Settings.ofTree []).compileAsking overriding.draft answersOnce (.list [])).runFrom 0 =
        (.ok p, 1) ∧
      ((Settings.ofTree []).compile overriding.draft (.given (.text "prod")) (.list [])).result =
        .ok p := by
  obtain ⟨hnobody, hsome, hbuilt, -⟩ := Settings.compile_asksOnce (Settings.ofTree []) (.list [])
  have hr : Request.build .builder overridingArguments none = .ok overriding := by decide
  obtain ⟨p, hp⟩ : ∃ p, ((Settings.ofTree []).compile overriding.draft (.given (.text "prod"))
      (.list [])).result = .ok p := Outcome.exists_ok (by cbv)
  have hask : answersOnce.runFrom 0 = (.ok (.text "prod"), 1) := rfl
  refine ⟨⟨rfl, rfl, (hnobody nobody rfl rfl).asking _ _⟩, ⟨rfl, ?_⟩, hr, p, ?_, hp⟩
  · rw [(hsome unwalkable (.inl rfl)).asking, hask]
    rfl
  · have hasked := hbuilt _ _ _ _ hr
    rw [hasked.asking, hask, hasked.given _ (.inr ⟨_, rfl⟩), hp]

end AccessPlan
