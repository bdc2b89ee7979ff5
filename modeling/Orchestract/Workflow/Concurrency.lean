import Mathlib.Data.List.Perm.Subperm
import Orchestract.Library.UnitsOfWork
import Orchestract.Workflow.Lifecycle

/-!
# Concurrent transitions

Several `transition_contract` requests on one contract, each a unit of work. A commit updates
by primary key the columns whose value is not the one it loaded and inserts the new history
rows; there is no lock and no version column. Such an interleaving amounts to a serial run
exactly when every accepted request still finds the step and the status it loaded.
-/

namespace Orchestract.WorkflowInstance

set_option autoImplicit false

open UnitsOfWork (Event Shared committed opened written alone Isolated)

universe u

/-- A column is part of the `UPDATE` when its value is not the one that was loaded. -/
def writeColumn {α : Type} [DecidableEq α] (loaded new stored : α) : α :=
  if new = loaded then stored else new

def flush (loaded new stored : WorkflowInstance) : WorkflowInstance :=
  { stored with
    currentStepKey := writeColumn loaded.currentStepKey new.currentStepKey stored.currentStepKey
    status := writeColumn loaded.status new.status stored.status
    completedAt := writeColumn loaded.completedAt new.completedAt stored.completedAt
    history := stored.history ++ new.history.drop loaded.history.length }

section

variable {κ : Type u} (definition : WorkflowDefinition) (call : κ → Call)

/-- The unit of work of request `k`. -/
def transitionContract (k : κ) (loaded stored : WorkflowInstance) : Option WorkflowInstance :=
  match (call k).result definition loaded with
  | .ok new => some (flush loaded new stored)
  | .error _ => none

variable [DecidableEq κ]

/-- The final row and history are those of running some of the requests one after another. -/
def Serialisable (i : WorkflowInstance) (events : List (Event κ)) : Prop :=
  ∃ order : List κ, order.Subperm (committed events) ∧
    Runs.Along (attempt definition) (fun a c => accepts definition a c = true) i (order.map call) ∧
    Runs.run (attempt definition) i (order.map call) =
      (Runs.run (UnitsOfWork.step (transitionContract definition call)) (opened i) events).stored

/-- An accepted request finds the instance on the step and in the status it loaded. -/
def FoundAsLoaded (w : Shared κ WorkflowInstance) : Event κ → Prop
  | .load _ => True
  | .commit k => (written (transitionContract definition call) w k).isSome →
      ∀ l, w.loaded k = some l →
        w.stored.currentStepKey = l.currentStepKey ∧ w.stored.status = l.status

end

/-- An open instance has no completion time. -/
def OpenEnded (i : WorkflowInstance) : Prop := i.status = .active → i.completedAt = none

def EndsOnEndStep (definition : WorkflowDefinition) (i : WorkflowInstance) : Prop :=
  i.status = .completed → IsTerminal definition i.currentStepKey

variable {κ : Type u} {definition : WorkflowDefinition} {call : κ → Call}

theorem writeColumn_self {α : Type} [DecidableEq α] (loaded new : α) :
    writeColumn loaded new loaded = new := by
  unfold writeColumn
  split
  · exact Eq.symm ‹_›
  · rfl

/-- A commit over the step and the status that were loaded writes the whole move. -/
theorem flush_moved {l s : WorkflowInstance} (target : WorkflowStep) (c : Call)
    (hl : l.status = .active) (hstep : s.currentStepKey = l.currentStepKey)
    (hstatus : s.status = l.status) (ho : OpenEnded l) (ho' : OpenEnded s) :
    flush l (moved l target c) s = moved s target c := by
  have hl' : l.completedAt = none := ho hl
  have hs' : s.completedAt = none := ho' (hstatus.trans hl)
  unfold flush moved
  rw [hstep, hstatus, hl, hl', hs', writeColumn_self, writeColumn_self, writeColumn_self]
  simp

theorem transitionContract_eq_some {k : κ} {l s s' : WorkflowInstance}
    (h : transitionContract definition call k l s = some s') :
    l.status = .active ∧ ∃ t, definition.findTransition l.currentStepKey (call k).actionName = some t ∧
      ∃ target, definition.getStep t.toStepKey = .ok target ∧
        flush l (moved l target (call k)) s = s' := by
  unfold transitionContract at h
  rcases ok_or_error ((call k).result definition l) with ⟨new, hr⟩ | ⟨e, hr⟩
  · rw [hr, Option.some.injEq] at h
    obtain ⟨ha, t, ht, target, htarget, rfl⟩ := result_ok_iff.mp hr
    exact ⟨ha, t, ht, target, htarget, h⟩
  · rw [hr] at h
    cases h

theorem flush_self {l new : WorkflowInstance} {k : κ} (h : (call k).result definition l = .ok new) :
    flush l new l = new := by
  obtain ⟨_, _, _, target, _, rfl⟩ := result_ok_iff.mp h
  unfold flush
  rw [writeColumn_self, writeColumn_self, writeColumn_self]
  simp [moved]

/-- A unit of work on its own is a call of `apply_transition`. -/
theorem alone_eq_attempt (definition : WorkflowDefinition) (call : κ → Call) (i : WorkflowInstance)
    (k : κ) :
    alone (transitionContract definition call) i k = attempt definition i (call k) ∧
      ((transitionContract definition call k i i).isSome = accepts definition i (call k)) := by
  unfold alone transitionContract attempt accepts
  rcases ok_or_error ((call k).result definition i) with ⟨new, hr⟩ | ⟨e, hr⟩
  · simp [hr, flush_self hr, Except.isOk, Except.toBool]
  · simp [hr, Except.isOk, Except.toBool]

theorem run_alone (i : WorkflowInstance) (order : List κ) :
    Runs.run (alone (transitionContract definition call)) i order =
      Runs.run (attempt definition) i (order.map call) := by
  induction order generalizing i with
  | nil => rfl
  | cons k ks ih =>
    rw [Runs.run_cons, ih, List.map_cons, Runs.run_cons, (alone_eq_attempt definition call i k).1]

theorem along_alone (i : WorkflowInstance) (order : List κ) :
    Runs.Along (alone (transitionContract definition call))
        (fun s k => (transitionContract definition call k s s).isSome) i order ↔
      Runs.Along (attempt definition) (fun a c => accepts definition a c = true) i
        (order.map call) := by
  induction order generalizing i with
  | nil => exact Iff.rfl
  | cons k ks ih =>
    obtain ⟨halone, haccepts⟩ := alone_eq_attempt definition call i k
    simp only [Runs.Along, List.map_cons]
    rw [ih, halone, haccepts]

theorem openEnded_transitionContract (k : κ) (l s s' : WorkflowInstance) (hl : OpenEnded l)
    (hs : OpenEnded s) (h : transitionContract definition call k l s = some s') : OpenEnded s' := by
  obtain ⟨ha, t, _, target, _, rfl⟩ := transitionContract_eq_some h
  intro hactive
  have hl' : l.completedAt = none := hl ha
  cases hterm : target.isTerminal with
  | true => simp [flush, moved, writeColumn, hterm, ha] at hactive
  | false =>
    have hs' : s.status = .active := by simpa [flush, moved, writeColumn, hterm, ha] using hactive
    simpa [flush, moved, writeColumn, hterm] using hs hs'

theorem openEnded_attempt {i : WorkflowInstance} (c : Call) (h : OpenEnded i) :
    OpenEnded (attempt definition i c) := by
  rcases attempt_cases definition i c with ⟨_, heq⟩ | ⟨_, ha, _, _, target, _, heq⟩
  · rwa [heq]
  · rw [heq]
    intro hactive
    cases hterm : target.isTerminal with
    | true => simp [moved, hterm] at hactive
    | false => simpa [moved, hterm] using h ha

variable [DecidableEq κ]

/-- The stored instance and all loaded ones are open-ended. -/
def AllOpenEnded (w : Shared κ WorkflowInstance) : Prop :=
  OpenEnded w.stored ∧ ∀ k l, w.loaded k = some l → OpenEnded l

theorem allOpenEnded_step (definition : WorkflowDefinition) (call : κ → Call)
    (w : Shared κ WorkflowInstance) (e : Event κ) (h : AllOpenEnded w) :
    AllOpenEnded (UnitsOfWork.step (transitionContract definition call) w e) :=
  UnitsOfWork.invariant openEnded_transitionContract w e h

omit [DecidableEq κ] in
/-- A commit that finds the instance as it loaded it writes what it would have written alone. -/
theorem isolated_of_foundAsLoaded (w : Shared κ WorkflowInstance) (e : Event κ)
    (hw : AllOpenEnded w) (h : FoundAsLoaded definition call w e) :
    Isolated (transitionContract definition call) w e := by
  cases e with
  | load k => trivial
  | commit k =>
    intro hsome
    obtain ⟨s', hs'⟩ := Option.isSome_iff_exists.mp hsome
    obtain ⟨l, hl, hwrite⟩ := Option.bind_eq_some_iff.mp hs'
    obtain ⟨hstep, hstatus⟩ := h hsome l hl
    obtain ⟨ha, t, ht, target, htarget, hflush⟩ := transitionContract_eq_some hwrite
    have hresult : (call k).result definition w.stored = .ok (moved w.stored target (call k)) :=
      result_ok_iff.mpr ⟨hstatus.trans ha, t, hstep ▸ ht, target, htarget, rfl⟩
    rw [hs', ← hflush, flush_moved target (call k) ha hstep hstatus (hw.2 k l hl) hw.1]
    unfold transitionContract
    simp only [hresult, flush_self hresult]

theorem serialisable_of_foundAsLoaded {i : WorkflowInstance} (hi : OpenEnded i)
    {events : List (Event κ)}
    (h : Runs.Along (UnitsOfWork.step (transitionContract definition call))
      (FoundAsLoaded definition call) (opened i) events) :
    Serialisable definition call i events := by
  have hisolated := Runs.along_of_invariant (I := AllOpenEnded)
    (fun w e hw _ => allOpenEnded_step definition call w e hw) isolated_of_foundAsLoaded
    ⟨hi, fun _ _ hl => by simp [opened] at hl⟩ h
  obtain ⟨hrun, halong⟩ := UnitsOfWork.stored_eq_alone _ events hisolated
  refine ⟨_, (UnitsOfWork.accepted_sublist _ events).subperm, (along_alone i _).mp halong, ?_⟩
  exact (run_alone i _).symm.trans hrun.symm

/-- Commits only append to the stored history. -/
theorem stored_history_prefix (definition : WorkflowDefinition) (call : κ → Call)
    (w : Shared κ WorkflowInstance) (events : List (Event κ)) :
    w.stored.history <+:
      (Runs.run (UnitsOfWork.step (transitionContract definition call)) w events).stored.history := by
  refine Runs.run_relates
    (R := fun a b : Shared κ WorkflowInstance => a.stored.history <+: b.stored.history)
    (fun _ => List.prefix_rfl) List.IsPrefix.trans (fun a e => ?_) w events
  cases e with
  | load k => exact List.prefix_rfl
  | commit k =>
    simp only [UnitsOfWork.step]
    cases hk : written (transitionContract definition call) a k with
    | none => exact List.prefix_rfl
    | some s' =>
      obtain ⟨l, _, hwrite⟩ := Option.bind_eq_some_iff.mp hk
      obtain ⟨_, _, _, _, _, rfl⟩ := transitionContract_eq_some hwrite
      exact List.prefix_append _ _

/-- The entry an accepted call appends. -/
def entry (i : WorkflowInstance) (target : WorkflowStep) (c : Call) : WorkflowHistoryEntry :=
  ⟨some i.currentStepKey, target.key, some c.actionName, c.actor, c.comment, c.now⟩

omit [DecidableEq κ] in
theorem flush_history (l s : WorkflowInstance) (target : WorkflowStep) (c : Call) :
    (flush l (moved l target c) s).history = s.history ++ [entry l target c] := by
  simp [flush, moved, entry]

/-- Two histories that extend one list by an entry each and begin one list have the same
entry. -/
theorem entry_unique {h final : List WorkflowHistoryEntry} {e e' : WorkflowHistoryEntry}
    (he : h ++ [e] <+: final) (he' : h ++ [e'] <+: final) : e = e' := by
  have heq := List.prefix_of_prefix_length_le he he' (by simp)
  simpa using heq.eq_of_length (by simp)

omit [DecidableEq κ] in
/-- A commit and a serial call whose histories begin one list were made on the same step, and
leave the same instance. -/
theorem eq_attempt_of_prefix {l s s' : WorkflowInstance} {k : κ} {c : Call}
    {final : List WorkflowHistoryEntry} (hwrite : transitionContract definition call k l s = some s')
    (haccepts : accepts definition s c = true) (hl : OpenEnded l) (hs : OpenEnded s)
    (hcommit : s'.history <+: final) (hserial : (attempt definition s c).history <+: final) :
    s.currentStepKey = l.currentStepKey ∧ s.status = l.status ∧ s' = attempt definition s c := by
  obtain ⟨ha, t, ht, target, htarget, hflush⟩ := transitionContract_eq_some hwrite
  rcases attempt_cases definition s c with ⟨hno, _⟩ | ⟨_, hactive, t', ht', target', htarget', heq⟩
  · exact absurd haccepts (by simp [hno])
  · rw [← hflush, flush_history] at hcommit
    rw [heq] at hserial
    -- both continue the stored history, so their next entries are one entry
    have hentry := entry_unique hcommit hserial
    simp only [entry, WorkflowHistoryEntry.mk.injEq, Option.some.injEq] at hentry
    obtain ⟨hstep, _, haction, hactor, hcomment, hnow⟩ := hentry
    have hcall : call k = c := by
      cases hck : call k
      cases c
      simp_all
    have hstatus : s.status = l.status := hactive.trans ha.symm
    rw [hstep, haction, ht'] at ht
    obtain rfl := Option.some.inj ht
    rw [htarget'] at htarget
    obtain rfl := Except.ok.inj htarget
    refine ⟨hstep.symm, hstatus, ?_⟩
    rw [heq, ← hflush, hcall, flush_moved target' c ha hstep.symm hstatus hl hs]

/-- If the history is that of a serial run, no accepted commit found another step or status. -/
theorem foundAsLoaded_of_history (events : List (Event κ)) (w : Shared κ WorkflowInstance)
    (hw : AllOpenEnded w) (calls : List Call)
    (haccepts : Runs.Along (attempt definition) (fun a c => accepts definition a c = true) w.stored calls)
    (hhistory : (Runs.run (attempt definition) w.stored calls).history =
      (Runs.run (UnitsOfWork.step (transitionContract definition call)) w events).stored.history) :
    Runs.Along (UnitsOfWork.step (transitionContract definition call))
      (FoundAsLoaded definition call) w events := by
  induction events generalizing w calls with
  | nil => trivial
  | cons e events ih =>
    have hnext := allOpenEnded_step definition call w e hw
    have hstart := stored_history_prefix definition call
      (UnitsOfWork.step (transitionContract definition call) w e) events
    rw [Runs.run_cons] at hhistory
    rw [← hhistory] at hstart
    cases e with
    | load k => exact ⟨trivial, ih _ hnext calls haccepts hhistory⟩
    | commit k =>
      cases hk : written (transitionContract definition call) w k with
      | none =>
        have hstored : (UnitsOfWork.step (transitionContract definition call) w (.commit k)).stored =
            w.stored := UnitsOfWork.stored_of_refused hk
        rw [← hstored] at haccepts hhistory
        exact ⟨by simp [FoundAsLoaded, hk], ih _ hnext calls haccepts hhistory⟩
      | some s' =>
        have hstored : (UnitsOfWork.step (transitionContract definition call) w (.commit k)).stored =
            s' := UnitsOfWork.stored_of_written hk
        obtain ⟨l, hl, hwrite⟩ := Option.bind_eq_some_iff.mp hk
        rw [hstored] at hstart
        cases calls with
        | nil =>
          -- the commit appended an entry, the serial run nothing
          obtain ⟨_, _, _, target, _, hflush⟩ := transitionContract_eq_some hwrite
          rw [← hflush, flush_history] at hstart
          have hlen := hstart.length_le
          simp only [Runs.run_nil, List.length_append, List.length_singleton] at hlen
          omega
        | cons c calls =>
          obtain ⟨hc, hcalls⟩ := haccepts
          have hserial : (attempt definition w.stored c).history <+:
              (Runs.run (attempt definition) w.stored (c :: calls)).history :=
            history_prefix (attempt definition w.stored c) calls
          obtain ⟨hstep, hstatus, rfl⟩ :=
            eq_attempt_of_prefix hwrite hc (hw.2 k l hl) hw.1 hstart hserial
          refine ⟨fun _ l' hl' => ?_, ih _ hnext calls ?_ ?_⟩
          · rw [hl] at hl'
            obtain rfl := Option.some.inj hl'
            exact ⟨hstep, hstatus⟩
          · rw [hstored]
            exact hcalls
          · rw [hstored]
            exact hhistory

omit [DecidableEq κ] in
theorem endsOnEndStep_attempt {i : WorkflowInstance} (c : Call) (h : EndsOnEndStep definition i) :
    EndsOnEndStep definition (attempt definition i c) := by
  rcases attempt_cases definition i c with ⟨_, heq⟩ | ⟨_, _, _, _, target, htarget, heq⟩
  · rwa [heq]
  · rw [heq]
    intro hc
    have hkey := (WorkflowDefinition.getStep_ok htarget).2
    have hterm : target.isTerminal = true := by
      by_contra hne
      simp [moved, hne] at hc
    exact ⟨target, by simpa [moved, hkey] using htarget, hterm⟩

/-- What a run from `start` guarantees is kept by a serialisable interleaving. -/
theorem Serialisable.faithful {i : WorkflowInstance} {events : List (Event κ)}
    (h : Serialisable definition call i events) (hpath : FaithfulPath definition i)
    (hend : EndsOnEndStep definition i) :
    let final := (Runs.run (UnitsOfWork.step (transitionContract definition call)) (opened i) events).stored
    FaithfulPath definition final ∧ EndsOnEndStep definition final := by
  obtain ⟨order, _, _, hrun⟩ := h
  intro final
  have hfinal : final = Runs.run (attempt definition) i (order.map call) := hrun.symm
  rw [hfinal]
  constructor
  · exact Runs.run_invariant (fun _ c hp => faithfulPath_attempt c hp) hpath _
  · exact Runs.run_invariant (fun _ c he => endsOnEndStep_attempt c he) hend _

/-- An interleaving of requests on an instance that earlier requests have brought to some step
is serialisable exactly when every accepted request finds the step and the status it loaded; its
history is then a path to the current step, and a completed instance is on an end step. -/
theorem serialisable_iff {contractId : Nat} {actor : String} {now : Nat} {first : WorkflowInstance}
    (hstart : start contractId definition actor now = .ok first) (before : List Call)
    (call : κ → Call) (events : List (Event κ)) :
    let i := Runs.run (attempt definition) first before
    let final := (Runs.run (UnitsOfWork.step (transitionContract definition call)) (opened i) events).stored
    (Serialisable definition call i events ↔
      Runs.Along (UnitsOfWork.step (transitionContract definition call))
        (FoundAsLoaded definition call) (opened i) events) ∧
    (Serialisable definition call i events →
      FaithfulPath definition final ∧ EndsOnEndStep definition final) := by
  intro i final
  obtain ⟨_, _, _, hfirst⟩ := start_ok_iff.mp hstart
  have hpath : FaithfulPath definition i :=
    Runs.run_invariant (fun _ c hp => faithfulPath_attempt c hp) (faithfulPath_start hstart) before
  have hopen : OpenEnded i :=
    Runs.run_invariant (fun _ c ho => openEnded_attempt c ho) (fun _ => by rw [← hfirst]) before
  have hend : EndsOnEndStep definition i := by
    refine Runs.run_invariant (fun _ c he => endsOnEndStep_attempt c he) ?_ before
    intro h
    rw [← hfirst] at h
    cases h
  refine ⟨⟨fun h => ?_, serialisable_of_foundAsLoaded hopen⟩, fun h => h.faithful hpath hend⟩
  obtain ⟨order, _, haccepts, hrun⟩ := h
  exact foundAsLoaded_of_history events (opened i)
    ⟨hopen, fun _ _ hl => by simp [opened] at hl⟩ (order.map call) haccepts
    (congrArg (fun a => a.history) hrun)

/-- Two requests on the linear workflow, the second opened after the first has committed. -/
theorem serialisable_linear :
    Serialisable .linear (fun k : Nat => ⟨"approve", "bob", none, k + 1⟩) (started .linear "draft")
      [.load 0, .commit 0, .load 1, .commit 1] := by
  have hstart : start 1 .linear "alice" 0 = .ok (started .linear "draft") := by decide
  refine (serialisable_iff hstart [] (fun k : Nat => ⟨"approve", "bob", none, k + 1⟩)
    [.load 0, .commit 0, .load 1, .commit 1]).1.mpr ⟨trivial, fun _ l hl => ?_, trivial, ?_, trivial⟩
  · obtain rfl := Option.some.inj hl
    exact ⟨rfl, rfl⟩
  · exact fun hsome => absurd hsome (by decide)

/-- A step from which one action leads to the end step and another one elsewhere. -/
def fork : WorkflowDefinition := .madeBy [
  .addStep ⟨"draft", "Draft", none, 1, true, false⟩,
  .addStep ⟨"rework", "Rework", none, 1, false, false⟩,
  .addStep ⟨"signed", "Signed", none, 1, false, true⟩,
  .addTransition ⟨"draft", "rework", "reject", none⟩,
  .addTransition ⟨"draft", "signed", "approve", none⟩,
  .addTransition ⟨"rework", "draft", "resubmit", none⟩,
  .activate]

/-- Both requests load the start step; the end step is entered and then left behind, completed. -/
theorem not_serialisable_fork :
    let call : Nat → Call := fun k => ⟨if k = 0 then "approve" else "reject", "bob", none, k + 1⟩
    let events : List (Event Nat) := [.load 0, .load 1, .commit 0, .commit 1]
    let final := (Runs.run (UnitsOfWork.step (transitionContract fork call))
      (opened (started fork "draft")) events).stored
    fork.Built ∧ start 1 fork "alice" 0 = .ok (started fork "draft") ∧
      ¬ Serialisable fork call (started fork "draft") events ∧
      ¬ Chained final.history ∧ final.status = .completed ∧ final.currentStepKey = "rework" ∧
      ¬ IsTerminal fork final.currentStepKey := by
  intro call events final
  have hstart : start 1 fork "alice" 0 = .ok (started fork "draft") := by decide
  have hchained : ¬ Chained final.history := by decide
  refine ⟨WorkflowDefinition.built_madeBy _, hstart, fun h => hchained ?_, hchained, by decide,
    by decide, by decide⟩
  exact (h.faithful (faithfulPath_start hstart) (fun h => by cases h)).1.chained

end Orchestract.WorkflowInstance
