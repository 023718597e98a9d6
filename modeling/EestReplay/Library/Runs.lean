import Mathlib.Data.List.Basic
import Mathlib.Data.List.Induction

/-! # Runs of a labelled transition system

The step function is partial: a label that is not enabled has no successor. -/

namespace Runs

variable {S L : Type} (step : S → L → Option S)

/-- The state after a sequence of labels, each enabled where it is taken. -/
def run (s : S) : List L → Option S
  | [] => some s
  | l :: ls => (step s l).bind fun t => run t ls

/-- Every step of a run is taken in a state that meets `C` for its label. -/
def Along (C : S → L → Prop) (s : S) : List L → Prop
  | [] => True
  | l :: ls =>
    C s l ∧
      match step s l with
      | some t => Along C t ls
      | none => True

instance decidableAlong (C : S → L → Prop) [∀ s l, Decidable (C s l)] :
    ∀ s ls, Decidable (Along step C s ls)
  | _, [] => .isTrue trivial
  | s, l :: ls =>
    @instDecidableAnd _ _ _ <|
      match step s l with
      | some t => decidableAlong C t ls
      | none => .isTrue trivial

variable {step}

@[simp] theorem run_nil (s : S) : run step s [] = some s := rfl

theorem run_cons {s t : S} {l : L} {ls : List L} :
    run step s (l :: ls) = some t ↔ ∃ u, step s l = some u ∧ run step u ls = some t := by
  simp [run, Option.bind_eq_some_iff]

theorem run_append {s t : S} {ls ms : List L} :
    run step s (ls ++ ms) = some t ↔ ∃ u, run step s ls = some u ∧ run step u ms = some t := by
  induction ls generalizing s with
  | nil => simp
  | cons l ls ih =>
      simp only [List.cons_append, run_cons, ih]
      constructor
      · rintro ⟨u, hu, v, hv, ht⟩
        exact ⟨v, ⟨u, hu, hv⟩, ht⟩
      · rintro ⟨v, ⟨u, hu, hv⟩, ht⟩
        exact ⟨u, hu, v, hv, ht⟩

/-- A run splits around any of its labels. -/
theorem run_split {s t : S} {past rest : List L} {l : L}
    (h : run step s (past ++ l :: rest) = some t) :
    ∃ u v, run step s past = some u ∧ step u l = some v ∧ run step v rest = some t := by
  obtain ⟨u, hu, htail⟩ := run_append.mp h
  obtain ⟨v, hv, ht⟩ := run_cons.mp htail
  exact ⟨u, v, hu, hv, ht⟩

theorem along_true (s : S) (ls : List L) : Along step (fun _ _ => True) s ls := by
  induction ls generalizing s with
  | nil => trivial
  | cons l ls ih =>
      refine ⟨trivial, ?_⟩
      cases step s l with
      | none => trivial
      | some t => exact ih t

theorem Along.and {C D : S → L → Prop} {s : S} {ls : List L} (hC : Along step C s ls)
    (hD : Along step D s ls) : Along step (fun t l => C t l ∧ D t l) s ls := by
  induction ls generalizing s with
  | nil => trivial
  | cons l ls ih =>
      refine ⟨⟨hC.1, hD.1⟩, ?_⟩
      have hCrest := hC.2
      have hDrest := hD.2
      cases h : step s l with
      | none => trivial
      | some t =>
          rw [h] at hCrest hDrest
          exact ih hCrest hDrest

/-- What every permitted step preserves holds at the end of a permitted run. -/
theorem invariant_along {C : S → L → Prop} {I : S → Prop}
    (hstep : ∀ s l t, I s → C s l → step s l = some t → I t) {s t : S} {ls : List L}
    (hs : I s) (hC : Along step C s ls) (hrun : run step s ls = some t) : I t := by
  induction ls generalizing s with
  | nil =>
      obtain rfl : s = t := by simpa using hrun
      exact hs
  | cons l ls ih =>
      obtain ⟨u, hu, htail⟩ := run_cons.mp hrun
      obtain ⟨hl, hrest⟩ := hC
      rw [hu] at hrest
      exact ih (hstep s l u hs hl hu) hrest htail

/-- What every step preserves holds at the end of every run. -/
theorem invariant {I : S → Prop} (hstep : ∀ s l t, I s → step s l = some t → I t) {s t : S}
    {ls : List L} (hs : I s) (hrun : run step s ls = some t) : I t :=
  invariant_along (C := fun _ _ => True) (fun s l t hI _ => hstep s l t hI) hs
    (along_true s ls) hrun

/-- Induction on the end of a run, for what depends on the labels taken so far. -/
theorem run_induction {P : List L → S → Prop} {s : S} (hnil : P [] s)
    (hstep : ∀ ls u l t, P ls u → step u l = some t → P (ls ++ [l]) t) {ls : List L} {t : S}
    (hrun : run step s ls = some t) : P ls t := by
  induction ls using List.reverseRecOn generalizing t with
  | nil =>
      obtain rfl : s = t := by simpa using hrun
      exact hnil
  | append_singleton ls l ih =>
      obtain ⟨u, hu, hlast⟩ := run_append.mp hrun
      obtain ⟨v, hv, hend⟩ := run_cons.mp hlast
      obtain rfl : v = t := by simpa using hend
      exact hstep ls u l v (ih hu) hv

end Runs
