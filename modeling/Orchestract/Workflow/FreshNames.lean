import Orchestract.Application.Presets
import Orchestract.Domain.Slugs
import Orchestract.Library.Loops

/-!
# Fresh names

A copy of a workflow and a workflow made from a preset get the first name whose slug no workflow of
the organization has: the bare one, or the one with the least number from 2 on.
-/

namespace Orchestract

set_option autoImplicit false

/-- The search for a name, with its loop
`while slugify(numbered(suffix)) in existing_slugs: suffix += 1`. -/
inductive Finds (bare : String) (numbered : Nat → String) (existingSlugs : List String) : String → Prop
  | bare (hfree : Text.slugify bare ∉ existingSlugs) : Finds bare numbered existingSlugs bare
  | numbered {suffix : Nat} (htaken : Text.slugify bare ∈ existingSlugs)
      (hloop : Loops.While (fun n => Text.slugify (numbered n) ∈ existingSlugs) (· + 1) 2 suffix) :
      Finds bare numbered existingSlugs (numbered suffix)

/-- The first of the names `bare`, `numbered 2`, `numbered 3`, and so on whose slug is free. -/
def FirstName (bare : String) (numbered : Nat → String) (existingSlugs : List String) (name : String) : Prop :=
  Text.slugify name ∉ existingSlugs ∧
    (name = bare ∨ Text.slugify bare ∈ existingSlugs ∧ ∃ suffix, 2 ≤ suffix ∧ name = numbered suffix ∧
      ∀ n, 2 ≤ n → n < suffix → Text.slugify (numbered n) ∈ existingSlugs)

variable {bare name : String} {numbered : Nat → String} {existingSlugs : List String}

theorem Finds.firstName (h : Finds bare numbered existingSlugs name) :
    FirstName bare numbered existingSlugs name := by
  cases h with
  | bare hfree => exact ⟨hfree, Or.inl rfl⟩
  | @numbered suffix htaken hloop =>
    obtain ⟨hstart, hfree, hbelow⟩ := Loops.least_of_search hloop
    exact ⟨hfree, Or.inr ⟨htaken, suffix, hstart, rfl, hbelow⟩⟩

/-- Enough fuel lets the counter stop where the loop stops. -/
theorem firstFree_of_while {taken : Nat → Bool} {start n : Nat}
    (h : Loops.While (fun n => taken n = true) (· + 1) start n) {fuel : Nat} (hfuel : n < start + fuel) :
    WorkflowService.firstFree taken fuel start = n := by
  induction h generalizing fuel with
  | @stop start hfree =>
    cases fuel with
    | zero => omega
    | succ fuel =>
      unfold WorkflowService.firstFree
      rw [if_neg hfree]
  | @turn start n htaken rest ih =>
    cases fuel with
    | zero =>
      have hle := (Loops.least_of_search rest).1
      omega
    | succ fuel =>
      unfold WorkflowService.firstFree
      rw [if_pos htaken]
      exact ih (by omega)

/-- Names whose slugs differ in every two numbers: the search ends, within as many turns as there are
slugs. -/
theorem while_firstFree (hinj : Function.Injective fun n => Text.slugify (numbered n))
    (existingSlugs : List String) :
    Loops.While (fun n => Text.slugify (numbered n) ∈ existingSlugs) (· + 1) 2
      (WorkflowService.firstFree (fun n => Text.slugify (numbered n) ∈ existingSlugs)
        (existingSlugs.length + 1) 2) := by
  obtain ⟨free, hstart, hbound, hfree⟩ := Loops.exists_name_notMem hinj existingSlugs 2
  obtain ⟨suffix, hloop⟩ : ∃ suffix, Loops.While (fun n => Text.slugify (numbered n) ∈ existingSlugs) (· + 1) 2
      suffix := Loops.search_terminates hstart hfree
  have hleast : suffix ≤ free := by
    by_contra hless
    exact hfree ((Loops.least_of_search hloop).2.2 free hstart (by omega))
  have hsame : Loops.While (fun n => decide (Text.slugify (numbered n) ∈ existingSlugs) = true) (· + 1) 2
      suffix := by
    simpa only [decide_eq_true_eq] using hloop
  rw [firstFree_of_while hsame (by omega)]
  exact hloop

/-- The search returns, and returns what the model computes. -/
theorem finds_iff (hinj : Function.Injective fun n => Text.slugify (numbered n)) :
    Finds bare numbered existingSlugs name ↔
      name = if Text.slugify bare ∉ existingSlugs then bare
        else numbered (WorkflowService.firstFree (fun n => Text.slugify (numbered n) ∈ existingSlugs)
          (existingSlugs.length + 1) 2) := by
  have hwhile := while_firstFree hinj existingSlugs
  constructor
  · intro h
    cases h with
    | bare hfree => rw [if_pos hfree]
    | numbered htaken hloop => rw [if_neg (not_not.mpr htaken), hloop.unique hwhile]
  · rintro rfl
    by_cases htaken : Text.slugify bare ∈ existingSlugs
    · rw [if_neg (not_not.mpr htaken)]
      exact .numbered htaken hwhile
    · rw [if_pos htaken]
      exact .bare htaken

/-! ## The two searches -/

theorem copy_inj (baseName : String) :
    Function.Injective fun n : Nat => Text.slugify s!"{baseName} (copy {n})" :=
  fun _ _ h => Text.slugify_numbered_inj s!"{baseName} (copy " ")" (by decide) h

theorem numbered_inj (baseName : String) : Function.Injective fun n : Nat => Text.slugify s!"{baseName} {n}" :=
  fun _ _ h => Text.slugify_numbered_inj s!"{baseName} " "" (by decide) (by simpa using h)

theorem finds_copy_iff {baseName : String} : Finds s!"{baseName} (copy)" (fun n => s!"{baseName} (copy {n})")
    existingSlugs name ↔ name = WorkflowService.uniqueCopyName baseName existingSlugs := by
  unfold WorkflowService.uniqueCopyName
  exact finds_iff (copy_inj baseName)

theorem uniqueCopyName_free (baseName : String) (slugs : List String) :
    Text.slugify (WorkflowService.uniqueCopyName baseName slugs) ∉ slugs :=
  (finds_copy_iff.mpr rfl).firstName.1

/-- The names are looked for among the slugs of the organization's workflows. -/
theorem uniqueWorkflowName_finds (w : World) (organizationId : Nat) (baseName : String) :
    ∃ workflows name, WorkflowService.listForOrganization organizationId w = .ok workflows ∧
      uniqueWorkflowName organizationId baseName w = .ok name ∧
      Finds baseName (fun n => s!"{baseName} {n}") (workflows.map fun d => d.slug) name := by
  obtain ⟨workflows, hlist⟩ : ∃ workflows, WorkflowService.listForOrganization organizationId w = .ok workflows :=
    ⟨_, rfl⟩
  refine ⟨workflows, _, hlist, ?_, (finds_iff (numbered_inj baseName)).mpr rfl⟩
  unfold uniqueWorkflowName
  rw [Read.bind_ok hlist]
  split
  · rfl
  · rfl

/-- Both searches end, at the first name whose slug is free, whatever the name they start from and
whatever slugs there are; the numbers are told apart by their slugs. -/
theorem fresh_names :
    (∀ (baseName : String) (existingSlugs : List String),
      (∀ name, Finds s!"{baseName} (copy)" (fun n => s!"{baseName} (copy {n})") existingSlugs name ↔
        name = WorkflowService.uniqueCopyName baseName existingSlugs) ∧
      FirstName s!"{baseName} (copy)" (fun n => s!"{baseName} (copy {n})") existingSlugs
        (WorkflowService.uniqueCopyName baseName existingSlugs)) ∧
    (∀ (baseName : String) (existingSlugs : List String), ∃ name,
      (∀ other, Finds baseName (fun n => s!"{baseName} {n}") existingSlugs other ↔ other = name) ∧
      FirstName baseName (fun n => s!"{baseName} {n}") existingSlugs name) ∧
    (∀ (w : World) (organizationId : Nat) (baseName : String), ∃ workflows name,
      WorkflowService.listForOrganization organizationId w = .ok workflows ∧
      uniqueWorkflowName organizationId baseName w = .ok name ∧
      Finds baseName (fun n => s!"{baseName} {n}") (workflows.map fun d => d.slug) name) ∧
    ∀ baseName : String,
      (Function.Injective fun n : Nat => Text.slugify s!"{baseName} (copy {n})") ∧
      (Function.Injective fun n : Nat => Text.slugify s!"{baseName} {n}") := by
  refine ⟨fun baseName existingSlugs => ⟨fun name => finds_copy_iff, ?_⟩, fun baseName existingSlugs => ?_,
    uniqueWorkflowName_finds, fun baseName => ⟨copy_inj baseName, numbered_inj baseName⟩⟩
  · exact (finds_copy_iff.mpr rfl).firstName
  · refine ⟨_, fun other => finds_iff (numbered_inj baseName), ?_⟩
    exact ((finds_iff (numbered_inj baseName)).mpr rfl).firstName

end Orchestract
