import Mathlib.Data.List.Basic

/-!
# Dictionaries

A dictionary is a list of entries in the order of insertion. Setting a key that is there
keeps its place, as Python does. A dictionary of lists collects the values of each key in
their order (`valuesOf_grouped`).
-/

set_option autoImplicit false

namespace EapAccel.Foundations

variable {κ ν : Type} [DecidableEq κ]

/-- `dict.pop(key, None)`. -/
def dictPop (key : κ) (dict : List (κ × ν)) : List (κ × ν) :=
  dict.filter fun entry => entry.1 ≠ key

/-- `dict[key] = value`. -/
def dictSet (key : κ) (value : ν) (dict : List (κ × ν)) : List (κ × ν) :=
  if dict.any (fun entry => entry.1 = key) then
    dict.map fun entry => if entry.1 = key then (key, value) else entry
  else dict ++ [(key, value)]

theorem mem_of_lookup {key : κ} {value : ν} {dict : List (κ × ν)}
    (found : dict.lookup key = some value) : (key, value) ∈ dict := by
  obtain ⟨before, after, rfl, _⟩ := List.lookup_eq_some_iff.mp found
  exact List.mem_append_right _ List.mem_cons_self

@[simp] theorem mem_dictPop {key : κ} {entry : κ × ν} {dict : List (κ × ν)} :
    entry ∈ dictPop key dict ↔ entry ∈ dict ∧ entry.1 ≠ key := by
  simp [dictPop]

/-- An entry after setting a key is the new one, or one of another key. -/
theorem of_mem_dictSet {key : κ} {value : ν} {entry : κ × ν} {dict : List (κ × ν)}
    (member : entry ∈ dictSet key value dict) :
    entry = (key, value) ∨ (entry ∈ dict ∧ entry.1 ≠ key) := by
  rw [dictSet] at member
  by_cases there : dict.any (fun entry => entry.1 = key)
  · rw [if_pos there] at member
    obtain ⟨old, there, rfl⟩ := List.mem_map.mp member
    by_cases same : old.1 = key
    · rw [if_pos same]
      exact .inl rfl
    · rw [if_neg same]
      exact .inr ⟨there, same⟩
  · rw [if_neg there] at member
    rcases List.mem_append.mp member with old | new
    · refine .inr ⟨old, fun same => there ?_⟩
      exact List.any_eq_true.mpr ⟨entry, old, decide_eq_true same⟩
    · exact .inl (List.mem_singleton.mp new)

theorem lookup_dictSet_self (key : κ) (value : ν) (dict : List (κ × ν)) :
    (dictSet key value dict).lookup key = some value := by
  rw [dictSet]
  by_cases there : dict.any (fun entry => entry.1 = key)
  · rw [if_pos there]
    induction dict with
    | nil => cases there
    | cons entry dict ih =>
        rw [List.map_cons]
        by_cases same : entry.1 = key
        · rw [if_pos same, List.lookup_cons_self]
        · rw [if_neg same, List.lookup_cons, beq_false_of_ne (Ne.symm same)]
          refine ih ?_
          simpa [same] using there
  · rw [if_neg there, List.lookup_append]
    have none : dict.lookup key = none := by
      rw [List.lookup_eq_none_iff]
      intro entry member
      refine bne_iff_ne.mpr fun same => there ?_
      exact List.any_eq_true.mpr ⟨entry, member, decide_eq_true same.symm⟩
    rw [none, List.lookup_cons_self]
    rfl

/-- Popping keeps the order of the entries. -/
theorem dictPop_sublist (key : κ) (dict : List (κ × ν)) : (dictPop key dict).Sublist dict :=
  List.filter_sublist

/-- The keys stay distinct under setting one of them. -/
theorem nodup_dictSet {key : κ} {value : ν} {dict : List (κ × ν)}
    (distinct : (dict.map Prod.fst).Nodup) : ((dictSet key value dict).map Prod.fst).Nodup := by
  rw [dictSet]
  by_cases there : dict.any (fun entry => entry.1 = key)
  · rw [if_pos there, List.map_map]
    have same : (Prod.fst ∘ fun entry : κ × ν => if entry.1 = key then (key, value) else entry) =
        Prod.fst := by
      funext entry
      by_cases here : entry.1 = key
      · simp [here]
      · simp [here]
    rwa [same]
  · rw [if_neg there, List.map_append, List.map_singleton]
    refine List.nodup_append.mpr ⟨distinct, by simp, ?_⟩
    intro old member new last
    rw [List.mem_singleton.mp last]
    rintro rfl
    obtain ⟨entry, old, rfl⟩ := List.mem_map.mp member
    exact there (List.any_eq_true.mpr ⟨entry, old, decide_eq_true rfl⟩)

/-- Where the keys are distinct every entry is found. -/
theorem lookup_of_mem {key : κ} {value : ν} {dict : List (κ × ν)}
    (distinct : (dict.map Prod.fst).Nodup) (member : (key, value) ∈ dict) :
    dict.lookup key = some value := by
  induction dict with
  | nil => cases member
  | cons entry dict ih =>
      rw [List.map_cons, List.nodup_cons] at distinct
      rcases List.mem_cons.mp member with rfl | later
      · exact List.lookup_cons_self
      · have different : key ≠ entry.1 := by
          rintro rfl
          exact distinct.1 (List.mem_map.mpr ⟨_, later, rfl⟩)
        rw [List.lookup_cons, beq_false_of_ne different]
        exact ih distinct.2 later

theorem lookup_dictPop_self (key : κ) (dict : List (κ × ν)) : (dictPop key dict).lookup key = none := by
  rw [List.lookup_eq_none_iff]
  intro entry member
  exact bne_iff_ne.mpr (mem_dictPop.mp member).2.symm

/-- Popping one key leaves the others alone. -/
theorem lookup_dictPop_of_ne {key other : κ} (different : key ≠ other) (dict : List (κ × ν)) :
    (dictPop other dict).lookup key = dict.lookup key := by
  induction dict with
  | nil => rfl
  | cons entry dict ih =>
      rw [dictPop, List.filter_cons]
      by_cases popped : entry.1 = other
      · have elsewhere : key ≠ entry.1 := popped ▸ different
        rw [if_neg (by simpa using popped), List.lookup_cons, beq_false_of_ne elsewhere]
        exact ih
      · rw [if_pos (by simpa using popped), List.lookup_cons, List.lookup_cons]
        cases key == entry.1 with
        | true => rfl
        | false => exact ih

/-- Setting one key leaves the others alone. -/
theorem lookup_dictSet_of_ne {key other : κ} {value : ν} (different : key ≠ other)
    (dict : List (κ × ν)) : (dictSet other value dict).lookup key = dict.lookup key := by
  rw [dictSet]
  by_cases there : dict.any (fun entry => entry.1 = other)
  · rw [if_pos there]
    clear there
    induction dict with
    | nil => rfl
    | cons entry dict ih =>
        rw [List.map_cons]
        by_cases here : entry.1 = other
        · have elsewhere : key ≠ entry.1 := here ▸ different
          rw [if_pos here, List.lookup_cons, List.lookup_cons, beq_false_of_ne different,
            beq_false_of_ne elsewhere]
          exact ih
        · rw [if_neg here, List.lookup_cons, List.lookup_cons, ih]
  · rw [if_neg there, List.lookup_append, List.lookup_cons, beq_false_of_ne different]
    exact Option.or_none

/-- A key that is not there is not there after popping another one. -/
theorem lookup_dictPop_of_none {key other : κ} {dict : List (κ × ν)}
    (absent : dict.lookup key = none) : (dictPop other dict).lookup key = none := by
  rw [List.lookup_eq_none_iff] at absent ⊢
  exact fun entry member => absent entry (mem_dictPop.mp member).1

/-- Setting another key keeps an entry. -/
theorem mem_dictSet_of_ne {key : κ} {value : ν} {entry : κ × ν} {dict : List (κ × ν)}
    (member : entry ∈ dict) (different : entry.1 ≠ key) : entry ∈ dictSet key value dict := by
  rw [dictSet]
  by_cases there : dict.any (fun entry => entry.1 = key)
  · rw [if_pos there]
    exact List.mem_map.mpr ⟨entry, member, if_neg different⟩
  · rw [if_neg there]
    exact List.mem_append_left _ member

theorem lookup_ne_none {key : κ} {value : ν} {dict : List (κ × ν)} (member : (key, value) ∈ dict) :
    dict.lookup key ≠ none := by
  intro absent
  exact bne_iff_ne.mp (List.lookup_eq_none_iff.mp absent _ member) rfl

/-- Popping some keys leaves the entries of the others. -/
theorem mem_foldl_dictPop {stale : List (κ × ν)} {entry : κ × ν} :
    ∀ {dict : List (κ × ν)},
      entry ∈ stale.foldl (fun dict old => dictPop old.1 dict) dict ↔
        entry ∈ dict ∧ ∀ old ∈ stale, entry.1 ≠ old.1 := by
  induction stale with
  | nil => simp
  | cons old stale ih =>
      intro dict
      rw [List.foldl_cons, ih, mem_dictPop, List.forall_mem_cons, and_assoc]

/-! ## Dictionaries of lists -/

/-- The values of a key. -/
def valuesOf (key : κ) (dict : List (κ × List ν)) : List ν := (dict.lookup key).getD []

/-- `dict.setdefault(key, []).append(value)`. -/
def dictAppend (key : κ) (value : ν) (dict : List (κ × List ν)) : List (κ × List ν) :=
  dictSet key (valuesOf key dict ++ [value]) dict

/-- Append the entries one after the other. -/
def grouped (entries : List (κ × ν)) (dict : List (κ × List ν)) : List (κ × List ν) :=
  entries.foldl (fun dict entry => dictAppend entry.1 entry.2 dict) dict

theorem valuesOf_dictAppend (key other : κ) (value : ν) (dict : List (κ × List ν)) :
    valuesOf key (dictAppend other value dict) =
      valuesOf key dict ++ if other = key then [value] else [] := by
  by_cases same : other = key
  · rw [same, if_pos rfl, valuesOf, dictAppend, lookup_dictSet_self, Option.getD_some]
  · rw [if_neg same, valuesOf, dictAppend, lookup_dictSet_of_ne (Ne.symm same), List.append_nil,
      valuesOf]

/-- Every key has the values it had, and then its own among the entries. -/
theorem valuesOf_grouped (key : κ) (entries : List (κ × ν)) (dict : List (κ × List ν)) :
    valuesOf key (grouped entries dict) =
      valuesOf key dict ++ (entries.filter fun entry => entry.1 = key).map Prod.snd := by
  induction entries generalizing dict with
  | nil => rw [List.filter_nil, List.map_nil, List.append_nil]; rfl
  | cons entry entries ih =>
      rw [grouped, List.foldl_cons, ← grouped, ih, valuesOf_dictAppend, List.append_assoc,
        List.filter_cons]
      by_cases same : entry.1 = key
      · simp [same]
      · simp [same]

end EapAccel.Foundations
