import LegionServer.Source.Common.TaskScheduler
import Mathlib.Algebra.Order.BigOperators.Group.List
import Mathlib.Algebra.Ring.Int.Defs

/-!
# Sliced updates

A scheduler whose handlers do not look at its clock does the same in one update as in
several that take as long together.
-/
namespace LegionServer.Guarantees.SlicedUpdates
open Library Source.Common TaskScheduler List

variable {K H : Type*} {handlers : Handlers K H} {predicate : H → Bool}
  {s s' r : TaskScheduler K H} {context : TaskContext} {b d e : Int} {ds : List Int}

/-- Handlers that use only calls relative to the end of their task. -/
def ClockFree (handlers : Handlers K H) : Prop :=
  ∀ task outside repeated group, ∀ call ∈ (handlers task outside repeated group).2, call.Relative

def Updated (handlers : Handlers K H) (predicate : H → Bool) (d : Int)
    (s r : TaskScheduler K H) : Prop :=
  ∃ fuel, update handlers predicate fuel s d = .ok r

def Updates (handlers : Handlers K H) (predicate : H → Bool) :
    List Int → TaskScheduler K H → TaskScheduler K H → Prop
  | [], s, r => s = r
  | d :: ds, s, r => ∃ s', Updated handlers predicate d s s' ∧ Updates handlers predicate ds s' r

def atTime (s : TaskScheduler K H) (now : Int) : TaskScheduler K H := { s with now }

@[simp] theorem atTime_now : (atTime s b).now = b := rfl

theorem repeatTask_atTime :
    (atTime s b).repeatTask context d =
      (s.repeatTask context d).map fun state => (atTime state.1 b, state.2) := by
  rw [repeatTask, repeatTask]
  split <;> rfl

/-- A call that does not look at the clock does the same at any time. -/
theorem call_atTime {request : ContextCall K} (hrelative : request.Relative) :
    call (atTime s b, context) request =
      (call (s, context) request).map fun state => (atTime state.1 b, state.2) := by
  cases request with
  | repeatAfter duration => exact repeatTask_atTime
  | repeatAgain => exact repeatTask_atTime
  | async => exact hrelative.elim
  | rescheduleAll => exact hrelative.elim
  | rescheduleGroup => exact hrelative.elim
  | _ => rfl

theorem calls_atTime {calls : List (ContextCall K)} (hrelative : ∀ call ∈ calls, call.Relative) :
    calls.foldlM call (atTime s b, context) =
      (calls.foldlM call (s, context)).map fun state => (atTime state.1 b, state.2) := by
  induction calls generalizing s context with
  | nil => rfl
  | cons request calls ih =>
    rw [foldlM_cons, foldlM_cons, call_atTime (hrelative request mem_cons_self)]
    cases call (s, context) request with
    | error fault => rfl
    | ok state => exact ih fun call hcall => hrelative call (mem_cons_of_mem _ hcall)

theorem invoke_atTime (hfree : ClockFree handlers) (id : TaskId) :
    invoke handlers (atTime s b) id = (invoke handlers s id).map (atTime · b) := by
  let task := s.tasks id
  let asked := handlers task.task s.outside task.repeated task.group
  let begun : TaskScheduler K H :=
    { s with outside := asked.1, invoked := s.invoked ++ [(task.task, task.repeated)] }
  change (asked.2.foldlM call (atTime begun b, { task := id }) >>= fun state => .ok state.1) =
    (asked.2.foldlM call (begun, { task := id }) >>= fun state => .ok state.1).map (atTime · b)
  rw [calls_atTime (hfree _ _ _ _)]
  cases asked.2.foldlM call (begun, { task := id }) with
  | error fault => rfl
  | ok state => rfl

theorem invoke_now (hfree : ClockFree handlers) {id : TaskId}
    (h : invoke handlers s id = .ok s') : s'.now = s.now := by
  have hsame : invoke handlers s id = (invoke handlers s id).map (atTime · s.now) :=
    invoke_atTime hfree id
  rw [h] at hsame
  have hs' : s' = atTime s' s.now := Except.ok.inj hsame
  rw [hs', atTime_now]

section dispatches

variable (hfree : ClockFree handlers) (hpredicate : ∀ outside, predicate outside = true)
  {first : TaskId} {rest : List TaskId} {fuel : Nat}
include hpredicate

theorem dispatchTasks_due (hholder : s.taskHolder = first :: rest)
    (hdue : (s.tasks first).taskEnd ≤ s.now) :
    dispatchTasks handlers predicate (fuel + 1) s =
      invoke handlers { s with taskHolder := rest } first >>=
        dispatchTasks handlers predicate fuel := by
  rw [dispatchTasks]
  simp only [hholder, if_neg (not_lt.mpr hdue)]
  simp [hpredicate]

theorem dispatch_eq : dispatch handlers predicate fuel s =
    dispatchTasks handlers predicate fuel s := by
  simp [dispatch, hpredicate]

omit hpredicate in
/-- Nothing is due. -/
theorem dispatchTasks_idle
    (h : ∀ first rest, s.taskHolder = first :: rest → s.now < (s.tasks first).taskEnd) :
    dispatchTasks handlers predicate (fuel + 1) s = .ok s := by
  rw [dispatchTasks]
  split
  · rfl
  · exact if_pos (h _ _ ‹_›)

include hfree

theorem dispatchTasks_cases (h : dispatchTasks handlers predicate (fuel + 1) s = .ok r) :
    r = s ∨ ∃ first rest s', s.taskHolder = first :: rest ∧ (s.tasks first).taskEnd ≤ s.now ∧
      invoke handlers { s with taskHolder := rest } first = .ok s' ∧ s'.now = s.now ∧
      dispatchTasks handlers predicate fuel s' = .ok r := by
  by_cases hdue : ∃ first rest, s.taskHolder = first :: rest ∧ (s.tasks first).taskEnd ≤ s.now
  · obtain ⟨first, rest, hholder, hdue⟩ := hdue
    rw [dispatchTasks_due hpredicate hholder hdue] at h
    obtain ⟨s', hinvoke, hrest⟩ := exists_of_bind_ok h
    exact .inr ⟨first, rest, s', hholder, hdue, hinvoke,
      invoke_now (s := { s with taskHolder := rest }) hfree hinvoke, hrest⟩
  · push Not at hdue
    rw [dispatchTasks_idle hdue] at h
    exact .inl (Except.ok.inj h).symm

theorem dispatchTasks_now (h : dispatchTasks handlers predicate fuel s = .ok r) :
    r.now = s.now := by
  induction fuel generalizing s with
  | zero => exact nomatch h
  | succ fuel ih =>
    rcases dispatchTasks_cases hfree hpredicate h with rfl | ⟨_, _, _, _, _, _, hnow, hrest⟩
    · rfl
    · exact (ih hrest).trans hnow

theorem dispatchTasks_join {s₁ : TaskScheduler K H} {n m : Nat} (hle : s.now ≤ b)
    (h : dispatchTasks handlers predicate n s = .ok s₁)
    (hlater : dispatchTasks handlers predicate m (atTime s₁ b) = .ok r) :
    ∃ fuel, dispatchTasks handlers predicate fuel (atTime s b) = .ok r := by
  induction n generalizing s with
  | zero => exact nomatch h
  | succ n ih =>
    rcases dispatchTasks_cases hfree hpredicate h with
      rfl | ⟨first, rest, s', hholder, hdue, hinvoke, hnow, hrest⟩
    · exact ⟨m, hlater⟩
    · obtain ⟨fuel, hfuel⟩ := ih (hnow.symm ▸ hle) hrest
      refine ⟨fuel + 1, ?_⟩
      rw [dispatchTasks_due hpredicate (s := atTime s b) hholder (hdue.trans hle)]
      have hinvoke' := invoke_atTime (b := b) (s := { s with taskHolder := rest }) hfree first
      rw [hinvoke] at hinvoke'
      exact (congrArg (· >>= _) hinvoke').trans hfuel

theorem dispatchTasks_split {n : Nat} (hle : s.now ≤ b)
    (h : dispatchTasks handlers predicate n (atTime s b) = .ok r) :
    ∃ s₁, (∃ fuel, dispatchTasks handlers predicate fuel s = .ok s₁) ∧
      ∃ fuel, dispatchTasks handlers predicate fuel (atTime s₁ b) = .ok r := by
  induction n generalizing s with
  | zero => exact nomatch h
  | succ n ih =>
    by_cases hdue : ∃ first rest, s.taskHolder = first :: rest ∧ (s.tasks first).taskEnd ≤ s.now
    · obtain ⟨first, rest, hholder, hdue⟩ := hdue
      rw [dispatchTasks_due hpredicate (s := atTime s b) hholder (hdue.trans hle)] at h
      have hinvoke' := invoke_atTime (b := b) (s := { s with taskHolder := rest }) hfree first
      cases hinvoke : invoke handlers { s with taskHolder := rest } first with
      | error fault =>
        rw [hinvoke] at hinvoke'
        exact nomatch (congrArg (· >>= _) hinvoke').symm.trans h
      | ok s' =>
        rw [hinvoke] at hinvoke'
        have hnow : s'.now = s.now :=
          invoke_now (s := { s with taskHolder := rest }) hfree hinvoke
        obtain ⟨s₁, ⟨fuel, hfuel⟩, hrest⟩ :=
          ih (hnow.symm ▸ hle) ((congrArg (· >>= _) hinvoke').symm.trans h)
        refine ⟨s₁, ⟨fuel + 1, ?_⟩, hrest⟩
        rw [dispatchTasks_due hpredicate hholder hdue, hinvoke]
        exact hfuel
    · push Not at hdue
      exact ⟨s, ⟨1, dispatchTasks_idle hdue⟩, n + 1, h⟩

theorem updated_now (h : Updated handlers predicate d s r) : r.now = s.now + d := by
  obtain ⟨fuel, hfuel⟩ := h
  rw [update, dispatch_eq hpredicate] at hfuel
  exact dispatchTasks_now hfree hpredicate hfuel

theorem updated_two (he : 0 ≤ e) :
    (∃ s', Updated handlers predicate d s s' ∧ Updated handlers predicate e s' r) ↔
      Updated handlers predicate (d + e) s r := by
  have hlater : ∀ s₁ : TaskScheduler K H, s₁.now = s.now + d →
      ({ s₁ with now := s₁.now + e } : TaskScheduler K H) = atTime s₁ (s.now + (d + e)) := by
    intro s₁ hnow
    rw [atTime, hnow, Int.add_assoc]
  have hle : (atTime s (s.now + d)).now ≤ s.now + (d + e) := by
    rw [atTime_now]
    omega
  constructor
  · rintro ⟨s₁, hs₁, m, hm⟩
    have hnow := updated_now hfree hpredicate hs₁
    obtain ⟨n, hn⟩ := hs₁
    rw [update, dispatch_eq hpredicate] at hn hm
    rw [hlater s₁ hnow] at hm
    obtain ⟨fuel, hfuel⟩ := dispatchTasks_join hfree hpredicate hle hn hm
    exact ⟨fuel, (dispatch_eq hpredicate).trans hfuel⟩
  · rintro ⟨n, hn⟩
    rw [update, dispatch_eq hpredicate] at hn
    obtain ⟨s₁, ⟨fuel, hfuel⟩, fuel', hfuel'⟩ := dispatchTasks_split hfree hpredicate hle hn
    refine ⟨s₁, ⟨fuel, (dispatch_eq hpredicate).trans hfuel⟩, fuel', ?_⟩
    rw [update, dispatch_eq hpredicate, hlater s₁ (dispatchTasks_now hfree hpredicate hfuel)]
    exact hfuel'

end dispatches

/-- Updates that come to their end leave what the one update as long as all of them does. -/
theorem updates_sum (hfree : ClockFree handlers) (hpredicate : ∀ outside, predicate outside = true)
    (hds : ∀ d ∈ ds, 0 ≤ d) :
    Updates handlers predicate (d :: ds) s r ↔ Updated handlers predicate (d + ds.sum) s r := by
  induction ds generalizing d s with
  | nil => simp [Updates]
  | cons e ds ih =>
    have hrest : ∀ s' : TaskScheduler K H, Updates handlers predicate (e :: ds) s' r ↔
        Updated handlers predicate (e + ds.sum) s' r :=
      fun s' => ih fun d hd => hds d (mem_cons_of_mem _ hd)
    have hsum : 0 ≤ e + ds.sum :=
      Int.add_nonneg (hds e mem_cons_self) (sum_nonneg fun d hd => hds d (mem_cons_of_mem _ hd))
    rw [sum_cons, ← updated_two hfree hpredicate hsum]
    exact exists_congr fun s' => and_congr_right fun _ => hrest s'

def beat : Handlers Unit Unit := fun _ _ repeated _ =>
  ((), if repeated < 2 then [.repeatAfter 2] else [])

def drummer : TaskScheduler Unit Unit where
  now := 0
  tasks _ := ⟨1, 1, none, 0, ()⟩
  nextTask := 1
  taskHolder := [0]
  outside := ()
  invoked := []

theorem updates_sum_drummer :
    ∃ r, Updates beat (fun _ => true) [2, 3] drummer r ∧ r.invoked = [((), 0), ((), 1), ((), 2)] := by
  have hfree : ClockFree beat := by
    intro _ _ repeated _ call hcall
    rw [beat] at hcall
    split at hcall
    · rw [List.mem_singleton.mp hcall]
      trivial
    · exact nomatch hcall
  have hat : ∃ r, Updated beat (fun _ => true) (2 + [3].sum) drummer r ∧
      r.invoked = [((), 0), ((), 1), ((), 2)] := ⟨_, ⟨4, rfl⟩, rfl⟩
  obtain ⟨r, hr, hinvoked⟩ := hat
  exact ⟨r, (updates_sum hfree (fun _ => rfl) (by decide)).mpr hr, hinvoked⟩

end LegionServer.Guarantees.SlicedUpdates
