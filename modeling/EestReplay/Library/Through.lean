import Mathlib.Data.List.Nodup
import Mathlib.Data.List.TakeDrop

/-! # Lists cut off behind a match -/

namespace Through

variable {α : Type}

/-- The entries up to and including the first that meets `p`, all when none does. -/
def through (p : α → Bool) : List α → List α
  | [] => []
  | x :: xs => if p x then [x] else x :: through p xs

theorem through_of_forall_not {p : α → Bool} {xs : List α} (h : ∀ x ∈ xs, p x = false) :
    through p xs = xs := by
  induction xs with
  | nil => rfl
  | cons x xs ih =>
      have hx : p x = false := h x List.mem_cons_self
      rw [through, hx, ih fun y hy => h y (List.mem_cons_of_mem x hy)]
      rfl

/-- The cut has a match exactly when the whole list has one. -/
theorem forall_mem_through {p : α → Bool} {xs : List α} :
    (∀ x ∈ through p xs, p x = false) ↔ ∀ x ∈ xs, p x = false := by
  induction xs with
  | nil => rfl
  | cons x xs ih =>
      unfold through
      cases hx : p x with
      | true => simp [hx]
      | false => simp [hx, ih]

/-- The cut behind the entry at an index, where no other entry matches. -/
theorem through_eq_take {p : α → Bool} {xs : List α} {i : ℕ} {x : α} (hx : xs[i]? = some x)
    (hmatch : p x = true) (hother : ∀ y ∈ xs.take i, p y = false) :
    through p xs = xs.take (i + 1) := by
  induction xs generalizing i with
  | nil => simp at hx
  | cons y ys ih =>
      cases i with
      | zero =>
          obtain rfl : y = x := by simpa using hx
          simp [through, hmatch]
      | succ i =>
          have hy : p y = false := hother y (by simp)
          have hrest : ∀ z ∈ ys.take i, p z = false :=
            fun z hz => hother z (by simp [hz])
          simp [through, hy, ih hx hrest]

/-- Where the keys of the entries differ, the cut at a key is the cut at its index. -/
theorem through_key_eq_take {κ : Type} [DecidableEq κ] {key : α → κ} {xs : List α}
    (hnodup : (xs.map key).Nodup) {i : ℕ} {x : α} (hx : xs[i]? = some x) :
    through (fun y => key y = key x) xs = xs.take (i + 1) := by
  apply through_eq_take hx (by simp)
  intro y hy
  obtain ⟨hi, hget⟩ := List.getElem?_eq_some_iff.mp hx
  have hdrop : x ∈ xs.drop i := by
    rw [← hget]
    exact List.mem_drop_iff_getElem.mpr ⟨0, by simpa using hi, by simp⟩
  have hdisjoint : List.Disjoint ((xs.take i).map key) ((xs.drop i).map key) := by
    apply List.disjoint_of_nodup_append
    rw [← List.map_append, List.take_append_drop]
    exact hnodup
  have hne : key y ≠ key x := by
    intro heq
    exact hdisjoint (List.mem_map_of_mem hy) (heq ▸ List.mem_map_of_mem hdrop)
  simpa using hne

/-- A cut range reaches every index that has no match before it. -/
theorem mem_through_range' {p : ℕ → Bool} {i count j : ℕ} :
    j ∈ through p (List.range' i count) ↔
      i ≤ j ∧ j < i + count ∧ ∀ k, i ≤ k → k < j → p k = false := by
  induction count generalizing i with
  | zero =>
      simp only [List.range'_zero, through, List.not_mem_nil, false_iff]
      omega
  | succ count ih =>
      rw [List.range'_succ, through]
      cases hi : p i with
      | true =>
          simp only [if_true, List.mem_singleton]
          constructor
          · rintro rfl
            exact ⟨Nat.le_refl j, by omega, fun k hik hkj => by omega⟩
          · rintro ⟨hij, -, hnone⟩
            by_contra hne
            have hfalse := hnone i (Nat.le_refl i) (by omega)
            rw [hi] at hfalse
            cases hfalse
      | false =>
          simp only [Bool.false_eq_true, if_false, List.mem_cons, ih]
          constructor
          · rintro (rfl | ⟨hij, hlt, hnone⟩)
            · exact ⟨Nat.le_refl j, by omega, fun k hik hkj => by omega⟩
            · refine ⟨by omega, by omega, ?_⟩
              intro k hik hkj
              rcases Nat.eq_or_lt_of_le hik with rfl | hlt'
              · exact hi
              · exact hnone k hlt' hkj
          · rintro ⟨hij, hlt, hnone⟩
            by_cases heq : j = i
            · exact .inl heq
            · exact .inr ⟨by omega, by omega, fun k hik hkj => hnone k (by omega) hkj⟩

/-- A list is cut before its first separator in one way. -/
theorem append_cons_inj {sep : α} {a b x y : List α} (ha : sep ∉ a) (hb : sep ∉ b)
    (h : a ++ sep :: x = b ++ sep :: y) : a = b ∧ x = y := by
  induction a generalizing b with
  | nil =>
      cases b with
      | nil => exact ⟨rfl, (List.cons.inj h).2⟩
      | cons c b =>
          obtain ⟨rfl, -⟩ := List.cons.inj h
          exact absurd List.mem_cons_self hb
  | cons c a ih =>
      cases b with
      | nil =>
          obtain ⟨rfl, -⟩ := List.cons.inj h
          exact absurd List.mem_cons_self ha
      | cons d b =>
          obtain ⟨rfl, hrest⟩ := List.cons.inj h
          obtain ⟨rfl, hxy⟩ := ih (mt (List.mem_cons_of_mem c) ha) (mt (List.mem_cons_of_mem c) hb)
            hrest
          exact ⟨rfl, hxy⟩

end Through
