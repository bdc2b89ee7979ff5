import Mathlib.Data.List.Basic
import Mathlib.Data.List.Nodup
import Mathlib.Data.List.Perm.Subperm
import Mathlib.Logic.Relation

/-!
# Worklist exploration of a finite successor function

`explore` pops a node from the frontier and pushes those of its successors that were not
seen before. The fuel bounds the number of pops. When the successors of all nodes lie in a
list `nodes`, `nodes.length + 1` pops empty the frontier, and the nodes seen are then exactly
the nodes a path leads to.
-/

namespace Orchestract.Worklist

set_option autoImplicit false

universe u

variable {α : Type u} [DecidableEq α]

/-- Push the successors that were not seen before. -/
def push (seen frontier : List α) : List α → List α × List α
  | [] => (seen, frontier)
  | b :: bs => if b ∈ seen then push seen frontier bs else push (b :: seen) (b :: frontier) bs

/-- Pop and push until the frontier is empty or the fuel is spent. -/
def explore (next : α → List α) : Nat → List α → List α → List α
  | 0, seen, _ => seen
  | _ + 1, seen, [] => seen
  | fuel + 1, seen, a :: frontier =>
    let pushed := push seen frontier (next a)
    explore next fuel pushed.1 pushed.2

def closure (next : α → List α) (fuel : Nat) (start : α) : List α :=
  explore next fuel [start] [start]

/-- One step of a path. -/
def Edge (next : α → List α) (a b : α) : Prop := b ∈ next a

abbrev Path (next : α → List α) : α → α → Prop := Relation.ReflTransGen (Edge next)

/-- The invariant of the loop: everything seen is reachable, the frontier was seen, and a node
that was seen and left the frontier has all its successors seen. -/
structure Inv (next : α → List α) (start : α) (seen frontier : List α) : Prop where
  start_seen : start ∈ seen
  nodup : seen.Nodup
  path : ∀ a ∈ seen, Path next start a
  frontier_seen : ∀ a ∈ frontier, a ∈ seen
  closed : ∀ a ∈ seen, a ∉ frontier → ∀ b ∈ next a, b ∈ seen

/-- What pushing a list of successors does to the seen nodes and to the frontier. -/
theorem push_spec (seen frontier bs : List α) :
    (∀ a, a ∈ (push seen frontier bs).1 ↔ a ∈ seen ∨ a ∈ bs) ∧
    (∀ a, a ∈ (push seen frontier bs).2 ↔ a ∈ frontier ∨ (a ∈ bs ∧ a ∉ seen)) ∧
    (seen.Nodup → (push seen frontier bs).1.Nodup) ∧
    (push seen frontier bs).1.length + frontier.length =
      seen.length + (push seen frontier bs).2.length := by
  induction bs generalizing seen frontier with
  | nil => simp [push]
  | cons b bs ih =>
    by_cases hb : b ∈ seen
    · obtain ⟨h₁, h₂, h₃, h₄⟩ := ih seen frontier
      simp only [push, if_pos hb]
      refine ⟨fun a => ?_, fun a => ?_, h₃, h₄⟩
      · rw [h₁, List.mem_cons]
        grind
      · rw [h₂, List.mem_cons]
        grind
    · obtain ⟨h₁, h₂, h₃, h₄⟩ := ih (b :: seen) (b :: frontier)
      simp only [push, if_neg hb]
      refine ⟨fun a => ?_, fun a => ?_, fun hn => h₃ (List.nodup_cons.mpr ⟨hb, hn⟩), ?_⟩
      · rw [h₁, List.mem_cons, List.mem_cons]
        grind
      · rw [h₂, List.mem_cons, List.mem_cons]
        grind
      · simp only [List.length_cons] at h₄
        omega

omit [DecidableEq α] in
theorem inv_start (next : α → List α) (start : α) : Inv next start [start] [start] where
  start_seen := List.mem_singleton.mpr rfl
  nodup := List.nodup_singleton start
  path := by
    intro a ha
    rw [List.mem_singleton.mp ha]
  frontier_seen := fun a ha => ha
  closed := fun a ha hn => absurd ha hn

/-- Popping a node and pushing its new successors keeps the invariant. -/
theorem inv_pop {next : α → List α} {start a : α} {seen frontier : List α}
    (h : Inv next start seen (a :: frontier)) :
    Inv next start (push seen frontier (next a)).1 (push seen frontier (next a)).2 := by
  obtain ⟨hseen, hfront, hnodup, _⟩ := push_spec seen frontier (next a)
  have ha : a ∈ seen := h.frontier_seen a List.mem_cons_self
  refine ⟨(hseen start).mpr (Or.inl h.start_seen), hnodup h.nodup, ?_, ?_, ?_⟩
  · intro b hb
    rcases (hseen b).mp hb with hb | hb
    · exact h.path b hb
    · exact (h.path a ha).tail hb
  · intro b hb
    rcases (hfront b).mp hb with hb | ⟨hb, _⟩
    · exact (hseen b).mpr (Or.inl (h.frontier_seen b (List.mem_cons_of_mem a hb)))
    · exact (hseen b).mpr (Or.inr hb)
  · intro b hb hbf c hc
    have hnf : b ∉ frontier := fun hf => hbf ((hfront b).mpr (Or.inl hf))
    by_cases hba : b = a
    · subst b
      exact (hseen c).mpr (Or.inr hc)
    · have hbs : b ∈ seen := by
        rcases (hseen b).mp hb with hbs | hbn
        · exact hbs
        · by_contra hns
          exact hbf ((hfront b).mpr (Or.inr ⟨hbn, hns⟩))
      have hnp : b ∉ a :: frontier := by simp [hba, hnf]
      exact (hseen c).mpr (Or.inl (h.closed b hbs hnp c hc))

omit [DecidableEq α] in
/-- With a universe for the successors, the number of nodes seen is bounded. -/
theorem seen_length_le {next : α → List α} {start : α} {seen frontier nodes : List α}
    (h : Inv next start seen frontier) (hnodes : ∀ a, ∀ b ∈ next a, b ∈ nodes) :
    seen.length ≤ nodes.length + 1 := by
  have hsub : seen ⊆ start :: nodes := by
    intro a ha
    rcases Relation.ReflTransGen.cases_tail (h.path a ha) with heq | ⟨b, _, hb⟩
    · exact List.mem_cons.mpr (Or.inl heq)
    · exact List.mem_cons_of_mem start (hnodes b a hb)
  simpa using (List.subperm_of_subset h.nodup hsub).length_le

/-- Enough fuel empties the frontier: what is seen at the end is closed. -/
theorem explore_spec {next : α → List α} {start : α} {nodes : List α}
    (hnodes : ∀ a, ∀ b ∈ next a, b ∈ nodes) {fuel : Nat} {seen frontier : List α}
    (h : Inv next start seen frontier)
    (hfuel : nodes.length + 1 + frontier.length ≤ fuel + seen.length) :
    Inv next start (explore next fuel seen frontier) [] := by
  induction fuel generalizing seen frontier with
  | zero =>
    have hlen := seen_length_le h hnodes
    have hnil : frontier = [] := List.length_eq_zero_iff.mp (by omega)
    subst hnil
    exact h
  | succ fuel ih =>
    cases frontier with
    | nil => exact h
    | cons a frontier =>
      obtain ⟨_, _, _, hlen⟩ := push_spec seen frontier (next a)
      simp only [explore]
      refine ih (inv_pop h) ?_
      simp only [List.length_cons] at hfuel
      omega

/-- The nodes found by the loop are exactly the nodes a path leads to. -/
theorem mem_closure_iff {next : α → List α} (nodes : List α)
    (hnodes : ∀ a, ∀ b ∈ next a, b ∈ nodes) {fuel : Nat} (hfuel : nodes.length + 1 ≤ fuel)
    (start a : α) : a ∈ closure next fuel start ↔ Path next start a := by
  have h : Inv next start (closure next fuel start) [] :=
    explore_spec hnodes (inv_start next start) (by simp only [List.length_cons, List.length_nil]; omega)
  constructor
  · exact h.path a
  · intro hp
    induction hp with
    | refl => exact h.start_seen
    | @tail b c _ hbc ih => exact h.closed b ih List.not_mem_nil c hbc

/-! ## The loop without a bound -/

/-- The loop, without a bound on the pops, ends with the nodes `result` seen. -/
inductive Explores (next : α → List α) : List α → List α → List α → Prop where
  | done (seen : List α) : Explores next seen [] seen
  | pop {seen frontier result : List α} (a : α)
      (rest : Explores next (push seen frontier (next a)).1 (push seen frontier (next a)).2
        result) :
      Explores next seen (a :: frontier) result

theorem Explores.unique {next : α → List α} {seen frontier first second : List α}
    (h : Explores next seen frontier first) (h' : Explores next seen frontier second) :
    first = second := by
  induction h with
  | done seen =>
    cases h' with
    | done => rfl
  | pop a _ ih =>
    cases h' with
    | pop _ rest => exact ih rest

/-- The loop ends, and ends as the bounded one does. -/
theorem explores_explore {next : α → List α} {start : α} {nodes : List α}
    (hnodes : ∀ a, ∀ b ∈ next a, b ∈ nodes) {fuel : Nat} {seen frontier : List α}
    (h : Inv next start seen frontier)
    (hfuel : nodes.length + 1 + frontier.length ≤ fuel + seen.length) :
    Explores next seen frontier (explore next fuel seen frontier) := by
  induction fuel generalizing seen frontier with
  | zero =>
    have hlen := seen_length_le h hnodes
    have hnil : frontier = [] := List.length_eq_zero_iff.mp (by omega)
    subst hnil
    exact Explores.done seen
  | succ fuel ih =>
    cases frontier with
    | nil => exact Explores.done seen
    | cons a frontier =>
      obtain ⟨_, _, _, hlen⟩ := push_spec seen frontier (next a)
      simp only [explore]
      refine Explores.pop a (ih (inv_pop h) ?_)
      simp only [List.length_cons] at hfuel
      omega

/-- The loop over any finite graph ends, whatever cycles the graph has. -/
theorem explores_closure {next : α → List α} (nodes : List α)
    (hnodes : ∀ a, ∀ b ∈ next a, b ∈ nodes) {fuel : Nat} (hfuel : nodes.length + 1 ≤ fuel)
    (start : α) : Explores next [start] [start] (closure next fuel start) := by
  refine explores_explore hnodes (inv_start next start) ?_
  simp only [List.length_cons, List.length_nil]
  omega

omit [DecidableEq α] in
/-- The nodes a path leads to form the least set that is closed under the successors. -/
theorem path_iff_mem_closed {next : α → List α} {start a : α} :
    Path next start a ↔
      ∀ nodes : Set α, start ∈ nodes → (∀ b ∈ nodes, ∀ c ∈ next b, c ∈ nodes) → a ∈ nodes := by
  constructor
  · intro hp nodes hstart hclosed
    induction hp with
    | refl => exact hstart
    | @tail b c _ hbc ih => exact hclosed b ih c hbc
  · intro h
    apply h {b | Path next start b}
    · exact Relation.ReflTransGen.refl
    · exact fun b hb c hc => Relation.ReflTransGen.tail hb hc

end Orchestract.Worklist
