import Mathlib.Data.List.Count
import Mathlib.Data.List.Perm.Basic

/-! # Interleavings of a family of sequences

A merged sequence is described by tagging each of its entries with its source. -/

namespace Interleaving

variable {ι α : Type} [DecidableEq ι]

/-- The entries of one source, in their order. -/
def part (i : ι) (tagged : List (ι × α)) : List α :=
  tagged.filterMap fun x => if x.1 = i then some x.2 else none

/-- `merged` consists of all of each `parts i`, each in its own order. -/
def Interleaves (merged : List α) (parts : ι → List α) : Prop :=
  ∃ tagged : List (ι × α), tagged.map Prod.snd = merged ∧ ∀ i, part i tagged = parts i

@[simp] theorem part_nil (i : ι) : part i ([] : List (ι × α)) = [] := rfl

@[simp] theorem part_append (i : ι) (l m : List (ι × α)) :
    part i (l ++ m) = part i l ++ part i m := by
  simp [part]

@[simp] theorem part_singleton_self (i : ι) (a : α) : part i [(i, a)] = [a] := by
  simp [part]

theorem part_singleton_of_ne {i j : ι} (h : j ≠ i) (a : α) : part i [(j, a)] = [] := by
  simp [part, h]

@[simp] theorem part_tag_self (i : ι) (l : List α) :
    part i (l.map fun a => (i, a)) = l := by
  induction l with
  | nil => rfl
  | cons a l ih => simp [part]

theorem part_tag_of_ne {i j : ι} (h : j ≠ i) (l : List α) :
    part i (l.map fun a => (j, a)) = [] := by
  induction l with
  | nil => rfl
  | cons a l ih => simp [part, h]

theorem mem_part {i : ι} {a : α} {tagged : List (ι × α)} :
    a ∈ part i tagged ↔ (i, a) ∈ tagged := by
  simp only [part, List.mem_filterMap]
  constructor
  · rintro ⟨⟨j, b⟩, hmem, hb⟩
    split at hb
    · simp_all
    · simp at hb
  · intro h
    exact ⟨(i, a), h, by simp⟩

theorem count_part [DecidableEq α] (i : ι) (a : α) (tagged : List (ι × α)) :
    (part i tagged).count a = tagged.count (i, a) := by
  induction tagged with
  | nil => rfl
  | cons x l ih =>
      obtain ⟨j, b⟩ := x
      have hcons : part i ((j, b) :: l) = part i [(j, b)] ++ part i l := by
        rw [← part_append]
        rfl
      rw [hcons, List.count_append, ih, List.count_cons]
      by_cases hj : j = i
      · subst hj
        simp [List.count_singleton, Nat.add_comm]
      · simp [part_singleton_of_ne hj, hj]

/-- Two tagged sequences with equal counts in every part have equal entries. -/
theorem perm_of_parts [DecidableEq α] {l m : List (ι × α)}
    (h : ∀ i, (part i l).Perm (part i m)) : l.Perm m := by
  rw [List.perm_iff_count]
  rintro ⟨i, a⟩
  rw [← count_part, ← count_part]
  exact (h i).count_eq a

/-- No entry of `i` stands after an entry of `j`. -/
def Precedes (i j : ι) (tagged : List (ι × α)) : Prop :=
  tagged.Pairwise fun x y => ¬ (x.1 = j ∧ y.1 = i)

theorem precedes_of_part_eq_nil {i j : ι} {tagged : List (ι × α)} (h : part j tagged = []) :
    Precedes i j tagged := by
  refine List.pairwise_of_forall_mem_list ?_
  rintro ⟨k, a⟩ hmem y _ ⟨rfl, _⟩
  have : a ∈ part k tagged := mem_part.mpr hmem
  simp [h] at this

/-- Entries of other sources than `i` may follow. -/
theorem Precedes.append {i j : ι} {l m : List (ι × α)} (hl : Precedes i j l)
    (hm : part i m = []) : Precedes i j (l ++ m) := by
  have hno : ∀ y ∈ m, y.1 ≠ i := by
    rintro ⟨k, a⟩ hmem rfl
    have : a ∈ part k m := mem_part.mpr hmem
    simp [hm] at this
  refine List.pairwise_append.mpr ⟨hl, ?_, ?_⟩
  · exact List.pairwise_of_forall_mem_list fun x _ y hy h => hno y hy h.2
  · exact fun x _ y hy h => hno y hy h.2

/-! ## Sources in a fixed order -/

/-- When a source has entries only after every earlier source is used up, what has been
merged is a prefix of the sources one after another. -/
theorem flatMap_prefix_of_blocked {κ β : Type} {ks : List κ} {a r : κ → List β}
    (h : ks.Pairwise fun i j => a j ≠ [] → r i = []) :
    ks.flatMap a <+: ks.flatMap fun k => a k ++ r k := by
  induction ks with
  | nil => simp
  | cons k ks ih =>
      obtain ⟨hk, hks⟩ := List.pairwise_cons.mp h
      simp only [List.flatMap_cons]
      by_cases hr : r k = []
      · rw [hr, List.append_nil]
        exact (List.prefix_append_right_inj _).mpr (ih hks)
      · have hempty : ks.flatMap a = [] := by
          apply List.flatMap_eq_nil_iff.mpr
          intro j hj
          by_contra ha
          exact hr (hk j hj ha)
        rw [hempty, List.append_nil, List.append_assoc]
        exact List.prefix_append _ _

/-- The last source that has entries grows at the end of the whole. -/
theorem flatMap_append_last {κ β : Type} {ks : List κ} {a b : κ → List β} {h : κ} {l : List β}
    (hnodup : ks.Nodup) (hmem : h ∈ ks) (hself : b h = a h ++ l)
    (hother : ∀ k, k ≠ h → b k = a k) (hlast : ks.Pairwise fun i j => i = h → a j = []) :
    ks.flatMap b = ks.flatMap a ++ l := by
  induction ks with
  | nil => simp at hmem
  | cons k ks ih =>
      obtain ⟨hk, hks⟩ := List.nodup_cons.mp hnodup
      obtain ⟨hfirst, hrest⟩ := List.pairwise_cons.mp hlast
      simp only [List.flatMap_cons]
      by_cases heq : k = h
      · subst heq
        have ha : ks.flatMap a = [] := List.flatMap_eq_nil_iff.mpr fun j hj => hfirst j hj rfl
        have hb : ks.flatMap b = [] := by
          apply List.flatMap_eq_nil_iff.mpr
          intro j hj
          rw [hother j (fun he => hk (he ▸ hj))]
          exact hfirst j hj rfl
        rw [ha, hb, hself, List.append_nil, List.append_nil]
      · have htail : h ∈ ks := (List.mem_cons.mp hmem).resolve_left (fun he => heq he.symm)
        rw [hother k heq, ih hks htail hrest, List.append_assoc]

/-- What stands before an entry of a list without repetitions is what is taken up to it. -/
theorem pairwise_takeWhile {κ : Type} [DecidableEq κ] {ks : List κ} (hnodup : ks.Nodup) (h : κ) :
    ks.Pairwise fun i j => j = h → i ∈ ks.takeWhile (· ≠ h) := by
  induction ks with
  | nil => exact List.Pairwise.nil
  | cons k ks ih =>
      obtain ⟨hk, hks⟩ := List.nodup_cons.mp hnodup
      have htake : ∀ j ∈ ks, j = h → (k :: ks).takeWhile (· ≠ h) = k :: ks.takeWhile (· ≠ h) := by
        intro j hj hjh
        have hne : k ≠ h := fun he => hk (he ▸ hjh ▸ hj)
        simp [hne]
      apply List.pairwise_cons.mpr
      refine ⟨?_, ?_⟩
      · intro j hj hjh
        rw [htake j hj hjh]
        exact List.mem_cons_self
      · apply (ih hks).imp_of_mem
        intro i j _ hj hij hjh
        rw [htake j hj hjh]
        exact List.mem_cons_of_mem _ (hij hjh)

end Interleaving
