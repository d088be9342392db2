import Mathlib

/-!
# Computations that draw random numbers

A source of random numbers answers every request for a number between two bounds with one between
them. A computation draws from it, and has no result when it asks for a number between bounds in
the wrong order or reads a list out of its bounds.
-/

namespace Iceee.Lib

/-- The answers to the requests, by their order and bounds. -/
structure RandomNumbers where
  answer : Nat → Int → Int → Int
  bounds : ∀ k min max, min ≤ max → min ≤ answer k min max ∧ answer k min max ≤ max

/-- A computation that counts the numbers it has drawn. -/
abbrev Draw := StateT Nat Option

namespace Draw

variable {α β : Type}

/-- A number between two bounds, both included. -/
def randInt (numbers : RandomNumbers) (min max : Int) : Draw Int := fun k =>
  if min ≤ max then some (numbers.answer k min max, k + 1) else none

/-- The entry of a list at an index. -/
def index (l : List α) (i : Int) : Draw α := fun k =>
  if 0 ≤ i then (l[i.toNat]?).map fun a => (a, k) else none

/-- Whatever was drawn before, the computation has a result, with a property. -/
def Yields (x : Draw α) (P : α → Prop) : Prop := ∀ k, ∃ a k', x.run k = some (a, k') ∧ P a

variable {P : α → Prop} {Q : β → Prop}

theorem Yields.pure {a : α} (h : P a) : Yields (pure a : Draw α) P := fun k => ⟨a, k, rfl, h⟩

theorem Yields.bind {x : Draw α} {f : α → Draw β} (hx : Yields x P)
    (hf : ∀ a, P a → Yields (f a) Q) : Yields (x >>= f) Q := by
  intro k
  obtain ⟨a, k', hrun, ha⟩ := hx k
  obtain ⟨b, k'', hrun', hb⟩ := hf a ha k'
  exact ⟨b, k'', by rw [StateT.run_bind, hrun]; exact hrun', hb⟩

theorem Yields.mono {P' : α → Prop} {x : Draw α} (hx : Yields x P) (h : ∀ a, P a → P' a) :
    Yields x P' := by
  intro k
  obtain ⟨a, k', hrun, ha⟩ := hx k
  exact ⟨a, k', hrun, h a ha⟩

theorem yields_randInt (numbers : RandomNumbers) {min max : Int} (h : min ≤ max) :
    Yields (randInt numbers min max) fun i => min ≤ i ∧ i ≤ max := by
  intro k
  exact ⟨numbers.answer k min max, k + 1, if_pos h, numbers.bounds k min max h⟩

/-- An entry of a list that is not empty, drawn by its index. -/
def pick (numbers : RandomNumbers) (l : List α) : Draw α := do
  let i ← randInt numbers 0 (l.length - 1)
  index l i

/-- After so many draws the computation has a result, with a property of it and of the number of
draws then. -/
def YieldsFrom (x : Draw α) (k : Nat) (P : α → Nat → Prop) : Prop :=
  ∃ a k', x.run k = some (a, k') ∧ P a k'

section YieldsFrom

variable {P : α → Nat → Prop} {Q : β → Nat → Prop} {k : Nat}

theorem YieldsFrom.pure {a : α} (h : P a k) : YieldsFrom (pure a : Draw α) k P := ⟨a, k, rfl, h⟩

theorem YieldsFrom.bind {x : Draw α} {f : α → Draw β} (hx : YieldsFrom x k P)
    (hf : ∀ a k', P a k' → YieldsFrom (f a) k' Q) : YieldsFrom (x >>= f) k Q := by
  obtain ⟨a, k', hrun, ha⟩ := hx
  obtain ⟨b, k'', hrun', hb⟩ := hf a k' ha
  exact ⟨b, k'', by rw [StateT.run_bind, hrun]; exact hrun', hb⟩

theorem Yields.yieldsFrom {P : α → Prop} {x : Draw α} (hx : Yields x P) :
    YieldsFrom x k fun a _ => P a := hx k

theorem yieldsFrom_randInt (numbers : RandomNumbers) {min max : Int} (h : min ≤ max) :
    YieldsFrom (randInt numbers min max) k fun i k' =>
      i = numbers.answer k min max ∧ k' = k + 1 := ⟨_, _, if_pos h, rfl, rfl⟩

theorem yieldsFrom_index {l : List α} {i : Int} (h0 : 0 ≤ i) (h : i < l.length) :
    YieldsFrom (index l i) k fun a k' => a ∈ l ∧ k' = k := by
  have hlt : i.toNat < l.length := by omega
  refine ⟨l[i.toNat], k, ?_, List.getElem_mem hlt, rfl⟩
  change (if 0 ≤ i then (l[i.toNat]?).map fun a => (a, k) else none) = _
  rw [if_pos h0, List.getElem?_eq_getElem hlt]
  rfl

theorem yieldsFrom_pick (numbers : RandomNumbers) {l : List α} (h : l ≠ []) :
    YieldsFrom (pick numbers l) k fun a k' => a ∈ l ∧ k' = k + 1 := by
  have hlength : 0 < l.length := List.length_pos_of_ne_nil h
  obtain ⟨hlow, hhigh⟩ := numbers.bounds k 0 (l.length - 1) (by omega)
  refine (yieldsFrom_randInt numbers (by omega)).bind fun i k' hi => ?_
  obtain ⟨rfl, rfl⟩ := hi
  exact yieldsFrom_index hlow (by omega)

end YieldsFrom

theorem yields_pick (numbers : RandomNumbers) {l : List α} (h : l ≠ []) :
    Yields (pick numbers l) (· ∈ l) := fun k => by
  obtain ⟨a, k', hrun, ha, -⟩ := yieldsFrom_pick (k := k) numbers h
  exact ⟨a, k', hrun, ha⟩

/-- What the computation results in, if it has a result, has a property. -/
def Ensures (x : Draw α) (P : α → Prop) : Prop := ∀ k a k', x.run k = some (a, k') → P a

theorem Ensures.pure {a : α} (h : P a) : Ensures (pure a : Draw α) P := by
  intro k b k' hrun
  cases hrun
  exact h

theorem Ensures.bind {R : α → Prop} {x : Draw α} {f : α → Draw β} (hx : Ensures x R)
    (hf : ∀ a, R a → Ensures (f a) Q) : Ensures (x >>= f) Q := by
  intro k b k' hrun
  rw [StateT.run_bind] at hrun
  obtain ⟨⟨a, l⟩, ha, hb⟩ := Option.bind_eq_some_iff.mp hrun
  exact hf a (hx k a l ha) l b k' hb

theorem Ensures.mono {P' : α → Prop} {x : Draw α} (hx : Ensures x P) (h : ∀ a, P a → P' a) :
    Ensures x P' := fun k a k' hrun => h a (hx k a k' hrun)

theorem Ensures.trivial (x : Draw α) : Ensures x fun _ => True := fun _ _ _ _ => True.intro

/-- A computation without a result ensures everything. -/
theorem Ensures.none : Ensures (fun _ => none : Draw α) P := fun _ _ _ hrun => nomatch hrun

end Draw

end Iceee.Lib
