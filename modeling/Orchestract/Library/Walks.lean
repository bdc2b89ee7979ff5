import Mathlib.Data.List.Induction

/-!
# Walks in a tree of folders

A walk starts at a folder, goes down into a named folder or up to the one above, and stays where it
is when there is none above. All that matters of a walk is how far it climbs above its start and the
names it goes down from there.
-/

namespace Orchestract.Walks

set_option autoImplicit false

universe u

variable {α : Type u}

/-- One move: down into a folder, or up. -/
def step (folder : List α) : Option α → List α
  | some name => folder ++ [name]
  | none => folder.dropLast

def walk (folder : List α) (moves : List (Option α)) : List α := moves.foldl step folder

def netStep (net : Nat × List α) : Option α → Nat × List α
  | some name => (net.1, net.2 ++ [name])
  | none => if net.2 = [] then (net.1 + 1, []) else (net.1, net.2.dropLast)

/-- How far the moves climb above their start, and the names they go down from there. -/
def net (moves : List (Option α)) : Nat × List α := moves.foldl netStep (0, [])

/-- What is strictly below a folder. -/
def Beneath (folder path : List α) : Prop := ∃ below, below ≠ [] ∧ path = folder ++ below

variable {folder path key : List α} {moves : List (Option α)}

@[simp] theorem walk_nil (folder : List α) : walk folder [] = folder := rfl

theorem walk_append (folder : List α) (moves moves' : List (Option α)) :
    walk folder (moves ++ moves') = walk (walk folder moves) moves' :=
  List.foldl_append

theorem walk_down (folder names : List α) : walk folder (names.map some) = folder ++ names := by
  induction names generalizing folder with
  | nil => simp
  | cons name names ih =>
    change walk (folder ++ [name]) (names.map some) = _
    rw [ih, List.append_assoc]
    rfl

theorem net_concat (moves : List (Option α)) (move : Option α) :
    net (moves ++ [move]) = netStep (net moves) move :=
  List.foldl_append

/-- A walk leaves as many folders as it climbs, and goes down from there. -/
theorem walk_eq (folder : List α) (moves : List (Option α)) :
    walk folder moves = folder.take (folder.length - (net moves).1) ++ (net moves).2 := by
  induction moves using List.reverseRecOn with
  | nil => simp [net]
  | append_singleton moves move ih =>
    rw [walk_append, ih, net_concat]
    cases move with
    | some name => exact List.append_assoc ..
    | none =>
      change (folder.take _ ++ _).dropLast = folder.take (_ - (netStep _ none).1) ++ (netStep _ none).2
      by_cases hnil : (net moves).2 = []
      · have hstep : netStep (net moves) none = ((net moves).1 + 1, []) := if_pos hnil
        rw [hstep, hnil, List.append_nil, List.append_nil, List.dropLast_eq_take, List.take_take,
          List.length_take]
        congr 1
        omega
      · have hstep : netStep (net moves) none = ((net moves).1, (net moves).2.dropLast) := if_neg hnil
        rw [hstep, List.dropLast_append_of_ne_nil hnil]

/-- Below the folder where it started is what goes down again through the folders that it left, and
further. -/
theorem beneath_walk_iff : Beneath folder (walk folder moves ++ key) ↔
    Beneath (folder.drop (folder.length - (net moves).1)) ((net moves).2 ++ key) := by
  have hsplit := List.take_append_drop (folder.length - (net moves).1) folder
  rw [walk_eq, List.append_assoc]
  constructor
  · intro ⟨below, hne, heq⟩
    refine ⟨below, hne, ?_⟩
    nth_rewrite 3 [← hsplit] at heq
    rw [List.append_assoc] at heq
    exact List.append_cancel_left heq
  · intro ⟨below, hne, heq⟩
    refine ⟨below, hne, ?_⟩
    rw [heq, ← List.append_assoc, hsplit]

/-- A walk that never climbs ends in its folder. -/
theorem beneath_of_net (h : (net moves).1 = 0) (hkey : key ≠ []) :
    Beneath folder (walk folder moves ++ key) := by
  rw [beneath_walk_iff, h, Nat.sub_zero, List.drop_length]
  exact ⟨(net moves).2 ++ key, by simp [hkey], rfl⟩

end Orchestract.Walks
