import Mathlib.Data.List.Nodup
import Mathlib.Data.List.Lemmas

/-!
# Insertion-ordered maps

A finite map that remembers the order in which its keys were first set, as JavaScript's `Map` and
the own properties of a plain object do: setting a present key keeps its place, setting a new one
appends it. That no key occurs twice is a field.
-/

namespace Ultrathink.Library

open List

structure OrderedMap (κ ν : Type) where
  entries : List (κ × ν)
  nodup : (entries.map Prod.fst).Nodup

namespace OrderedMap

variable {κ ν : Type}

def empty : OrderedMap κ ν := ⟨[], by simp⟩

def size (m : OrderedMap κ ν) : Nat := m.entries.length

def values (m : OrderedMap κ ν) : List ν := m.entries.map Prod.snd

/-- Drops the entries that fail the test; the rest keep their order. -/
def filter (m : OrderedMap κ ν) (keep : κ → ν → Bool) : OrderedMap κ ν :=
  ⟨m.entries.filter (fun e => keep e.1 e.2),
    m.nodup.sublist (filter_sublist.map Prod.fst)⟩

/-- Replaces every value, keeping keys and order. -/
def mapValues (m : OrderedMap κ ν) (f : κ → ν → ν) : OrderedMap κ ν :=
  ⟨m.entries.map (fun e => (e.1, f e.1 e.2)), by
    simpa [map_map, Function.comp_def] using m.nodup⟩

section Keyed
variable [DecidableEq κ]

def get? (m : OrderedMap κ ν) (k : κ) : Option ν :=
  (m.entries.find? (fun e => e.1 = k)).map Prod.snd

def contains (m : OrderedMap κ ν) (k : κ) : Bool := (m.get? k).isSome

def erase (m : OrderedMap κ ν) (k : κ) : OrderedMap κ ν := m.filter (fun key _ => key ≠ k)

/-- The value written into the entry list: in place for a present key, at the
end for a new one. -/
def place (k : κ) (v : ν) : List (κ × ν) → List (κ × ν)
  | [] => [(k, v)]
  | e :: rest => if e.1 = k then (k, v) :: rest else e :: place k v rest

theorem mem_keys_place (k : κ) (v : ν) (l : List (κ × ν)) (key : κ) :
    key ∈ (place k v l).map Prod.fst ↔ key = k ∨ key ∈ l.map Prod.fst := by
  induction l with
  | nil => simp [place]
  | cons e rest ih =>
    by_cases same : e.1 = k
    · simp [place, same]
    · simp only [place, if_neg same, map_cons, mem_cons, ih]
      tauto

theorem nodup_place (k : κ) (v : ν) (l : List (κ × ν)) (nodup : (l.map Prod.fst).Nodup) :
    ((place k v l).map Prod.fst).Nodup := by
  induction l with
  | nil => simp [place]
  | cons e rest ih =>
    simp only [map_cons, nodup_cons] at nodup
    by_cases same : e.1 = k
    · simp only [place, if_pos same, map_cons, nodup_cons]
      exact ⟨same ▸ nodup.1, nodup.2⟩
    · simp only [place, if_neg same, map_cons, nodup_cons, mem_keys_place]
      exact ⟨by rintro (h | h); exacts [same h, nodup.1 h], ih nodup.2⟩

def set (m : OrderedMap κ ν) (k : κ) (v : ν) : OrderedMap κ ν :=
  ⟨place k v m.entries, nodup_place k v m.entries m.nodup⟩

/-- Writes a changed value back under a present key; absent keys stay absent. -/
def modify (m : OrderedMap κ ν) (k : κ) (f : ν → ν) : OrderedMap κ ν :=
  m.mapValues (fun key v => if key = k then f v else v)

@[simp] theorem get?_empty (k : κ) : (empty : OrderedMap κ ν).get? k = none := rfl

theorem find?_place (k key : κ) (v : ν) (l : List (κ × ν)) :
    ((place k v l).find? (fun e => e.1 = key)).map Prod.snd =
      if key = k then some v else (l.find? (fun e => e.1 = key)).map Prod.snd := by
  induction l with
  | nil =>
    by_cases h : key = k
    · simp [place, h]
    · simp [place, h, Ne.symm h]
  | cons e rest ih =>
    by_cases same : e.1 = k
    · by_cases h : key = k
      · simp [place, same, h]
      · simp [place, same, h, Ne.symm h]
    · by_cases h : e.1 = key
      · have : key ≠ k := fun hk => same (h.trans hk)
        simp [place, h, this]
      · simp [place, same, h, ih]

@[simp] theorem get?_set (m : OrderedMap κ ν) (k key : κ) (v : ν) :
    (m.set k v).get? key = if key = k then some v else m.get? key :=
  find?_place k key v m.entries

theorem get?_set_self (m : OrderedMap κ ν) (k : κ) (v : ν) : (m.set k v).get? k = some v := by
  simp

theorem get?_set_of_ne (m : OrderedMap κ ν) {k key : κ} (v : ν) (ne : key ≠ k) :
    (m.set k v).get? key = m.get? key := by simp [ne]

theorem get?_eq_some_iff (m : OrderedMap κ ν) (k : κ) (v : ν) :
    m.get? k = some v ↔ (k, v) ∈ m.entries := by
  obtain ⟨l, nodup⟩ := m
  simp only [get?]
  induction l with
  | nil => simp
  | cons e rest ih =>
    simp only [map_cons, nodup_cons] at nodup
    by_cases same : e.1 = k
    · subst same
      have absent : (e.1, v) ∉ rest := fun h =>
        nodup.1 (mem_map.mpr ⟨_, h, rfl⟩)
      simp only [find?_cons, decide_true, Option.map_some, Option.some.injEq, mem_cons,
        absent, or_false]
      constructor
      · intro h; rw [← h]
      · intro h; rw [← h]
    · have ne : (k, v) ≠ e := fun h => same (by rw [← h])
      simp only [find?_cons, same, decide_false, mem_cons, ne, false_or]
      exact ih nodup.2

theorem get?_filter (m : OrderedMap κ ν) (keep : κ → ν → Bool) (k : κ) :
    (m.filter keep).get? k = (m.get? k).filter (keep k) := by
  cases h : m.get? k with
  | none =>
    simp only [Option.filter_none]
    by_contra found
    obtain ⟨v, hv⟩ := Option.ne_none_iff_exists'.mp found
    have mem := (get?_eq_some_iff _ k v).mp hv
    have : m.get? k = some v := (get?_eq_some_iff _ _ _).mpr (mem_filter.mp mem).1
    rw [h] at this
    cases this
  | some v =>
    have mem := (get?_eq_some_iff _ _ _).mp h
    by_cases kept : keep k v = true
    · simp only [Option.filter_some, kept, if_true]
      exact (get?_eq_some_iff _ _ _).mpr (mem_filter.mpr ⟨mem, kept⟩)
    · simp only [Option.filter_some, kept]
      by_contra found
      obtain ⟨w, hw⟩ := Option.ne_none_iff_exists'.mp found
      have mem' := mem_filter.mp ((get?_eq_some_iff _ k w).mp hw)
      have same : m.get? k = some w := (get?_eq_some_iff _ _ _).mpr mem'.1
      rw [h] at same
      cases same
      exact kept mem'.2

@[simp] theorem get?_erase (m : OrderedMap κ ν) (k key : κ) :
    (m.erase k).get? key = if key = k then none else m.get? key := by
  rw [erase, get?_filter]
  by_cases h : key = k
  · cases m.get? key <;> simp [h]
  · cases m.get? key <;> simp [h]

theorem get?_mapValues (m : OrderedMap κ ν) (f : κ → ν → ν) (k : κ) :
    (m.mapValues f).get? k = (m.get? k).map (f k) := by
  obtain ⟨l, nodup⟩ := m
  simp only [get?, mapValues]
  clear nodup
  induction l with
  | nil => rfl
  | cons e rest ih =>
    by_cases same : e.1 = k
    · simp [same]
    · simpa [same] using ih

@[simp] theorem get?_modify (m : OrderedMap κ ν) (k key : κ) (f : ν → ν) :
    (m.modify k f).get? key = if key = k then (m.get? k).map f else m.get? key := by
  rw [modify, get?_mapValues]
  by_cases h : key = k
  · subst h
    simp
  · simp [h]

theorem countP_place (p : ν → Bool) (k : κ) (v old : ν) (l : List (κ × ν))
    (present : (l.find? (fun e => e.1 = k)).map Prod.snd = some old) :
    (place k v l).countP (fun e => p e.2) + (if p old then 1 else 0) =
      l.countP (fun e => p e.2) + if p v then 1 else 0 := by
  induction l with
  | nil => simp at present
  | cons e rest ih =>
    by_cases same : e.1 = k
    · have value : e.2 = old := by simpa [same] using present
      simp only [place, if_pos same, countP_cons, value]
      omega
    · have later := ih (by simpa [same] using present)
      simp only [place, if_neg same, countP_cons]
      omega

theorem countP_set (m : OrderedMap κ ν) (p : ν → Bool) {k : κ} {old : ν} (v : ν)
    (present : m.get? k = some old) :
    (m.set k v).entries.countP (fun e => p e.2) + (if p old then 1 else 0) =
      m.entries.countP (fun e => p e.2) + if p v then 1 else 0 :=
  countP_place p k v old m.entries present

theorem length_place (k : κ) (v : ν) (l : List (κ × ν)) :
    (place k v l).length = if k ∈ l.map Prod.fst then l.length else l.length + 1 := by
  induction l with
  | nil => simp [place]
  | cons e rest ih =>
    by_cases same : e.1 = k
    · simp [place, same]
    · have other : ¬k = e.1 := fun eq => same eq.symm
      rw [place, if_neg same, length_cons, ih, map_cons]
      simp only [mem_cons, other, false_or]
      split <;> rfl

theorem size_set_le (m : OrderedMap κ ν) (k : κ) (v : ν) : (m.set k v).size ≤ m.size + 1 := by
  have length := length_place k v m.entries
  simp only [size, set]
  rw [length]
  split <;> omega

theorem size_set_of_present (m : OrderedMap κ ν) {k : κ} {old : ν} (v : ν)
    (present : m.get? k = some old) : (m.set k v).size = m.size := by
  have mem := (get?_eq_some_iff m k old).mp present
  simp only [size, set]
  rw [length_place, if_pos (mem_map_of_mem (f := Prod.fst) mem)]

end Keyed

theorem size_filter_le (m : OrderedMap κ ν) (keep : κ → ν → Bool) :
    (m.filter keep).size ≤ m.size := length_filter_le _ _

end OrderedMap

end Ultrathink.Library
