import Mathlib.Algebra.GroupWithZero.Nat
import Mathlib.Data.List.Nodup

/-! # Dictionaries in insertion order

A dictionary is the list of its items, in the order in which its keys came in. -/

namespace Dict

variable {K V : Type} [DecidableEq K]

/-- `d[key] = value` -/
def setItem (key : K) (value : V) : List (K × V) → List (K × V)
  | [] => [(key, value)]
  | (k, v) :: rest => if k = key then (k, value) :: rest else (k, v) :: setItem key value rest

/-- Insert items one after another. -/
def update (d items : List (K × V)) : List (K × V) :=
  items.foldl (fun d x => setItem x.1 x.2 d) d

/-- A dictionary comprehension over items in this order. -/
def fromItems (items : List (K × V)) : List (K × V) := update [] items

def keys (d : List (K × V)) : List K := d.map Prod.fst

omit [DecidableEq K] in
@[simp] theorem keys_nil : keys ([] : List (K × V)) = [] := rfl

omit [DecidableEq K] in
@[simp] theorem keys_cons (x : K × V) (d : List (K × V)) : keys (x :: d) = x.1 :: keys d := rfl

omit [DecidableEq K] in
@[simp] theorem keys_append (d e : List (K × V)) : keys (d ++ e) = keys d ++ keys e :=
  List.map_append

/-- `d.get(key)`, item by item. -/
theorem lookup_cons {k key : K} {value : V} {d : List (K × V)} :
    ((key, value) :: d).lookup k = if k = key then some value else d.lookup k := by
  by_cases h : k = key
  · subst h
    simp
  · have hne : (k == key) = false := by simpa using h
    rw [List.lookup_cons, hne, if_neg h]

/-- The lookup in keys beside their values. -/
theorem lookup_zip_map {keys : List K} (f : K → V) {k : K} (h : k ∈ keys) :
    (keys.zip (keys.map f)).lookup k = some (f k) := by
  induction keys with
  | nil => cases h
  | cons key keys ih =>
      rw [List.map_cons, List.zip_cons_cons, lookup_cons]
      by_cases hk : k = key
      · rw [if_pos hk, hk]
      · rw [if_neg hk]
        exact ih ((List.mem_cons.mp h).resolve_left hk)

/-- The lookup in an item that is only there under a condition. -/
theorem lookup_ite {p : Prop} [Decidable p] {k key : K} {value : V} :
    (if p then [(key, value)] else []).lookup k = if p ∧ k = key then some value else none := by
  by_cases h : p <;> simp [h, lookup_cons]

/-- A key that is not there yet goes to the end. -/
theorem setItem_of_not_mem {key : K} {d : List (K × V)} (h : key ∉ keys d) (value : V) :
    setItem key value d = d ++ [(key, value)] := by
  induction d with
  | nil => rfl
  | cons x d ih =>
      obtain ⟨k, v⟩ := x
      simp only [keys_cons, List.mem_cons, not_or] at h
      rw [setItem, if_neg (Ne.symm h.1), ih h.2]
      rfl

/-- A key that is there keeps its place; a weight of the items changes with its value. -/
theorem setItem_of_lookup {key : K} {old : V} {d : List (K × V)} (h : d.lookup key = some old)
    (value : V) (weight : V → ℕ) :
    (setItem key value d).length = d.length ∧
      ((setItem key value d).map fun x => weight x.2).sum + weight old =
        (d.map fun x => weight x.2).sum + weight value := by
  induction d with
  | nil => simp at h
  | cons x d ih =>
      obtain ⟨k, v⟩ := x
      rw [lookup_cons] at h
      by_cases hk : key = k
      · rw [if_pos hk] at h
        obtain rfl := Option.some.inj h
        simp only [setItem, if_pos hk.symm, List.length_cons, List.map_cons, List.sum_cons,
          true_and]
        omega
      · rw [if_neg hk] at h
        obtain ⟨hlength, hsum⟩ := ih h
        simp only [setItem, if_neg (Ne.symm hk), List.length_cons, List.map_cons, List.sum_cons,
          hlength, true_and]
        omega

theorem not_mem_keys_of_lookup {key : K} {d : List (K × V)} (h : d.lookup key = none) :
    key ∉ keys d := by
  intro hmem
  obtain ⟨x, hx, rfl⟩ := List.mem_map.mp hmem
  exact absurd (List.lookup_eq_none_iff.mp h x hx) (by simp)

theorem mem_keys_setItem {key k : K} {value : V} {d : List (K × V)} :
    k ∈ keys (setItem key value d) ↔ k = key ∨ k ∈ keys d := by
  induction d with
  | nil => simp [setItem]
  | cons x d ih =>
      obtain ⟨j, v⟩ := x
      by_cases h : j = key
      · subst h
        simp [setItem]
      · simp [setItem, h, ih, or_left_comm]

/-- Keys that a loop sets to one value. -/
theorem mem_keys_foldl_setItem {names : List K} {k : K} {value : V} {d : List (K × V)} :
    k ∈ keys (names.foldl (fun d name => setItem name value d) d) ↔ k ∈ names ∨ k ∈ keys d := by
  induction names generalizing d with
  | nil => simp
  | cons name names ih =>
      rw [List.foldl_cons, ih, mem_keys_setItem, List.mem_cons]
      tauto

/-- Items with new and different keys are all added, in their order. -/
theorem update_of_nodup {d items : List (K × V)} (h : (keys (d ++ items)).Nodup) :
    update d items = d ++ items := by
  induction items generalizing d with
  | nil => simp [update]
  | cons x items ih =>
      have hnext : (keys ((d ++ [x]) ++ items)).Nodup := by simpa using h
      have hnew : x.1 ∉ keys d := by
        intro hmem
        rw [keys_append, keys_cons] at h
        exact (List.nodup_append.mp h).2.2 x.1 hmem x.1 List.mem_cons_self rfl
      have hstep : update d (x :: items) = update (setItem x.1 x.2 d) items := rfl
      rw [hstep, setItem_of_not_mem hnew, ih hnext]
      simp

theorem fromItems_of_nodup {items : List (K × V)} (h : (keys items).Nodup) :
    fromItems items = items := by
  have hupdate : update [] items = [] ++ items := update_of_nodup (by simpa using h)
  simpa [fromItems] using hupdate

end Dict
