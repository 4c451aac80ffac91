import ArtifactFlow.Proofs.Run.Course
import ArtifactFlow.Proofs.Run.Hearing

/-!
What hooks hear of a failure. When a call fails, whatever it failed from, the pipeline's hooks are
told of it once each, after those of the craft if the failure was not a refusal of theirs. When a
hook of the pipeline itself refuses, no hook is told of any failure.
-/

namespace ArtifactFlow

open Run

def Moment.isFailure : Moment → Bool
  | .failed _ => true
  | _ => false

/-- The notices of failures among others. -/
def alarms (trace : List Notice) : List Notice :=
  trace.filter (·.moment.isFailure)

theorem alarms_append (trace more : List Notice) :
    alarms (trace ++ more) = alarms trace ++ alarms more :=
  List.filter_append trace more

theorem alarms_of_failure {moment : Moment} (h : moment.isFailure = true) (target : String)
    (hooks : List Hook) :
    alarms (Hook.notices target moment hooks) = Hook.notices target moment hooks :=
  List.filter_eq_self.2 (by simp [Hook.notices, h])

theorem alarms_of_not_failure {moment : Moment} (h : moment.isFailure = false) (target : String)
    (hooks : List Hook) : alarms (Hook.notices target moment hooks) = [] :=
  List.filter_eq_nil_iff.2 (by simp [Hook.notices, h])

namespace Hook

variable {target : String} {hooks : List Hook} {s t : RunState} {r : Except Fault Unit}

theorem alarms_consult {moment : Moment} (h : moment.isFailure = false)
    (ask : Hook → Result Unit) : alarms (consult target moment ask hooks).2 = [] := by
  obtain ⟨asked, -, htold⟩ := exists_consult_eq target moment ask hooks
  rw [htold, alarms_of_not_failure h]

theorem alarms_callBefore (h : exec (callBefore target hooks) s = (r, t)) :
    alarms t.trace = alarms s.trace := by
  rw [exec_callBefore] at h
  cases h
  rw [RunState.tell, alarms_append, alarms_consult rfl, List.append_nil]

theorem alarms_callAfter (h : exec (callAfter target hooks) s = (r, t)) :
    alarms t.trace = alarms s.trace := by
  rw [exec_callAfter] at h
  cases h
  rw [RunState.tell, alarms_append, alarms_consult rfl, List.append_nil]

theorem exists_refusing_before {e : Fault} (h : exec (callBefore target hooks) s = (.error e, t)) :
    ∃ hook ∈ hooks, ∃ source, hook.before target s.context = .error source ∧
      e = refusal target source := by
  rw [exec_callBefore] at h
  exact exists_refusing (congrArg Prod.fst h)

theorem exists_refusing_after {e : Fault} (h : exec (callAfter target hooks) s = (.error e, t)) :
    ∃ hook ∈ hooks, ∃ source, hook.after target s.context = .error source ∧
      e = refusal target source := by
  rw [exec_callAfter] at h
  exact exists_refusing (congrArg Prod.fst h)

theorem exists_tell_of_callBefore (h : exec (callBefore target hooks) s = (r, t)) :
    ∃ told, t = s.tell told := by
  rw [exec_callBefore] at h
  cases h
  exact ⟨_, rfl⟩

end Hook

namespace Craft

/-- How a call fails, and what the craft's own hooks hear of the failure. -/
inductive Alarmed (craft : Craft) (catalog : Catalog) (s : RunState) :
    Fault → List Notice → Prop where
  /-- A hook of the craft refuses at the start. -/
  | start {hook : Hook} {source : Failure} :
      hook ∈ craft.hooks → hook.before craft.name s.context = .error source →
      Alarmed craft catalog s (Hook.refusal craft.name source) []
  /-- What the craft does itself fails. -/
  | failed {t : RunState} {e : Fault} :
      exec (craft.perform catalog []) s = (.error e, t) →
      Alarmed craft catalog s e (Hook.notices craft.name (.failed e) craft.hooks)
  /-- A hook of the craft refuses at the end. -/
  | finish {t : RunState} {hook : Hook} {source : Failure} :
      exec (craft.perform catalog []) s = (.ok (), t) → hook ∈ craft.hooks →
      hook.after craft.name t.context = .error source →
      Alarmed craft catalog s (Hook.refusal craft.name source) []

variable {craft : Craft} {catalog : Catalog} {s t : RunState}

theorem alarms_of_invoke (h : exec (craft.invoke catalog []) s = (.ok (), t)) :
    alarms t.trace = alarms s.trace := by
  obtain ⟨⟨⟩, u, hbefore, h⟩ := exec_bind_eq_ok.1 h
  obtain ⟨⟨⟩, v, hperform, hafter⟩ := exec_bind_eq_ok.1 h
  rw [Hook.alarms_callAfter hafter,
    (craft.silent_perform catalog []).trace_eq (exec_told_eq_ok.1 hperform),
    Hook.alarms_callBefore hbefore]

theorem alarmed_of_invoke {e : Fault} (h : exec (craft.invoke catalog []) s = (.error e, t)) :
    ∃ own, craft.Alarmed catalog s e own ∧ alarms t.trace = alarms s.trace ++ own := by
  have silent := craft.silent_perform catalog []
  rcases exec_bind_eq_error.1 h with hbefore | ⟨⟨⟩, u, hbefore, h⟩
  · obtain ⟨hook, hmem, source, hrefuses, rfl⟩ := Hook.exists_refusing_before hbefore
    refine ⟨[], .start hmem hrefuses, ?_⟩
    rw [Hook.alarms_callBefore hbefore, List.append_nil]
  · obtain ⟨told, rfl⟩ := Hook.exists_tell_of_callBefore hbefore
    have hquiet := Hook.alarms_callBefore hbefore
    rcases exec_bind_eq_error.1 h with hfailing | ⟨⟨⟩, v, hending, hafter⟩
    · obtain ⟨v, hperform, rfl⟩ := exec_told_eq_error.1 hfailing
      obtain ⟨w, hfails, -⟩ := silent.exec_untell hperform
      refine ⟨_, .failed hfails, ?_⟩
      rw [RunState.tell, alarms_append, alarms_of_failure rfl, silent.trace_eq hperform, hquiet]
    · have hperform := exec_told_eq_ok.1 hending
      obtain ⟨w, hends, rfl⟩ := silent.exec_untell hperform
      obtain ⟨hook, hmem, source, hrefuses, rfl⟩ := Hook.exists_refusing_after hafter
      refine ⟨[], .finish hends hmem hrefuses, ?_⟩
      rw [Hook.alarms_callAfter hafter, silent.trace_eq hperform, hquiet, List.append_nil]

end Craft

theorem Course.alarms_eq {catalog : Catalog} {s t : RunState} {calls : List Call}
    (h : Course catalog s calls t) : alarms t.trace = alarms s.trace := by
  induction h with
  | nil s => rfl
  | cons hcall _ ih => rw [ih, Craft.alarms_of_invoke hcall.finished]

namespace Pipeline

variable {p : Pipeline} {catalog : Catalog} {args : Mapping} {store : Store} {context : Context}

theorem Progress.alarms_eq {calls : List Call} {left : List Craft} {s : RunState}
    (h : p.Progress catalog args store calls left s) : alarms s.trace = [] := by
  obtain ⟨context, start, -, hbefore, course⟩ := h.course
  rw [course.alarms_eq, Hook.alarms_callBefore hbefore]
  rfl

/-- How a run fails, and what hooks hear of the failure. -/
inductive Alarmed (p : Pipeline) (catalog : Catalog) (args : Mapping) (store : Store) :
    Fault → List Notice → Prop where
  /-- A hook of the pipeline refuses before the first call. -/
  | start {context : Context} {hook : Hook} {source : Failure} :
      Context.ofArgs args (p.crafts.map (·.name)) = .ok context → hook ∈ p.hooks →
      hook.before p.name context = .error source →
      Alarmed p catalog args store (Hook.refusal p.name source) []
  /-- A hook of the pipeline refuses after the last call. -/
  | finish {calls : List Call} {s : RunState} {hook : Hook} {source : Failure} :
      p.Progress catalog args store calls [] s → hook ∈ p.hooks →
      hook.after p.name s.context = .error source →
      Alarmed p catalog args store (Hook.refusal p.name source) []
  /-- A call fails. -/
  | call {calls : List Call} {craft : Craft} {left : List Craft} {s : RunState} {e : Fault}
      {own : List Notice} :
      p.Progress catalog args store calls (craft :: left) s → craft.Alarmed catalog s e own →
      Alarmed p catalog args store e (own ++ Hook.notices p.name (.failed e) p.hooks)

/-- A failed call is told to every hook of the pipeline once, and a refusal by one of them to
none. -/
theorem alarms_of_run {e : Fault}
    (haccepted : Context.ofArgs args (p.crafts.map (·.name)) = .ok context)
    (h : (p.run catalog args store).result = .error e) :
    p.Alarmed catalog args store e (alarms (p.run catalog args store).trace) := by
  rw [run_eq, haccepted] at h ⊢
  dsimp only at h ⊢
  rcases hexec : exec (p.perform catalog) ⟨context, store, []⟩ with ⟨fault | ⟨⟩, t⟩
  · rw [hexec] at h
    obtain rfl := Except.error.inj h
    dsimp only
    rcases stops_of_perform haccepted hexec with hbefore | hcall | hafter
    · obtain ⟨hook, hmem, source, hrefuses, rfl⟩ := Hook.exists_refusing_before hbefore
      rw [Hook.alarms_callBefore hbefore]
      exact .start haccepted hmem hrefuses
    · obtain ⟨calls, craft, left, s, v, progress, hinvoke, rfl⟩ := hcall
      obtain ⟨own, alarmed, halarms⟩ := Craft.alarmed_of_invoke hinvoke
      rw [RunState.tell, alarms_append, halarms, progress.alarms_eq, List.nil_append,
        alarms_of_failure rfl]
      exact .call progress alarmed
    · obtain ⟨calls, s, progress, hafter⟩ := hafter
      obtain ⟨hook, hmem, source, hrefuses, rfl⟩ := Hook.exists_refusing_after hafter
      rw [Hook.alarms_callAfter hafter, progress.alarms_eq]
      exact .finish progress hmem hrefuses
  · rw [hexec] at h
    cases h

end Pipeline

namespace Brewery

def refusing : Hook :=
  ⟨"guard", fun _ _ => .error (.message "closed"), fun _ _ => .ok ()⟩

def refusingLate : Hook :=
  ⟨"guard", fun _ _ => .ok (), fun _ _ => .error (.message "closed")⟩

/-- One of two hooks of a pipeline refuses. -/
def guarded (guard : Hook) : Pipeline :=
  ⟨"brew", [malt], [0], [.observer "log", guard]⟩

/-- A hook of the only craft refuses. -/
def watched : Pipeline :=
  ⟨"brew", [{ malt with hooks := [refusing] }], [0], [.observer "log", .observer "bell"]⟩

theorem result_guarded : ∀ guard ∈ [refusing, refusingLate],
    ((guarded guard).run catalog [] store).result =
      .error (Hook.refusal "brew" (.message "closed")) ∧
    alarms ((guarded guard).run catalog [] store).trace = [] := by
  intro guard hguard
  simp only [List.mem_cons, List.not_mem_nil, or_false] at hguard
  rcases hguard with rfl | rfl <;> exact ⟨rfl, rfl⟩

end Brewery

open Brewery in
theorem Pipeline.alarms_of_run_brewery :
    (watched.run catalog [] store).result =
      .error (Hook.refusal "malt" (.message "closed")) ∧
    watched.Alarmed catalog [] store (Hook.refusal "malt" (.message "closed"))
      (alarms (watched.run catalog [] store).trace) ∧
    (alarms (watched.run catalog [] store).trace).map (·.hook) = ["log", "bell"] := by
  have hresult : (watched.run catalog [] store).result =
      .error (Hook.refusal "malt" (.message "closed")) := rfl
  exact ⟨hresult, alarms_of_run rfl hresult, rfl⟩

open Brewery in
/-- Hooks of a pipeline are not told of a failure that comes from one of them, whether it refuses
at the start or at the end. -/
theorem Pipeline.not_failure_told :
    (∀ guard ∈ [refusing, refusingLate],
      ((guarded guard).run catalog [] store).result =
        .error (Hook.refusal "brew" (.message "closed")) ∧
      alarms ((guarded guard).run catalog [] store).trace = []) ∧
    ¬ ∀ (p : Pipeline) (catalog : Catalog) (args : Mapping) (store : Store) (context : Context)
      (e : Fault), Context.ofArgs args (p.crafts.map (·.name)) = .ok context →
      (p.run catalog args store).result = .error e →
      ∀ hook ∈ p.hooks, ⟨hook.name, p.name, .failed e⟩ ∈ (p.run catalog args store).trace := by
  refine ⟨result_guarded, fun hall => ?_⟩
  obtain ⟨hresult, halarms⟩ := result_guarded refusing List.mem_cons_self
  have hmem := hall (guarded refusing) catalog [] store .empty _ rfl hresult refusing
    (List.mem_cons_of_mem _ List.mem_cons_self)
  have halarm : _ ∈ alarms ((guarded refusing).run catalog [] store).trace :=
    List.mem_filter.2 ⟨hmem, rfl⟩
  rw [halarms] at halarm
  cases halarm

end ArtifactFlow
