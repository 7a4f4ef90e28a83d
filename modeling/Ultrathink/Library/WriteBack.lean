import Mathlib.Data.List.Induction

/-!
# Writing back later

Files by name, and one more file that repeats the last write. A cache that writes at once
puts each value into its file; one that writes back later remembers which names it owes,
each once, the most recent last.
-/

namespace Ultrathink.Library.WriteBack

open List

variable {κ ν : Type}

structure Files (κ ν : Type) where
  file : κ → Option ν
  latest : Option ν

@[ext] theorem Files.ext {f g : Files κ ν} (file : f.file = g.file) (latest : f.latest = g.latest) :
    f = g := by
  cases f
  cases g
  cases file
  cases latest
  rfl

section Keyed
variable [DecidableEq κ]

def Files.write (files : Files κ ν) (name : κ) (value : ν) : Files κ ν :=
  ⟨Function.update files.file name (some value), some value⟩

/-- The names, oldest first, written with what the memory holds of them. -/
def drain (memory : κ → Option ν) (names : List κ) (files : Files κ ν) : Files κ ν :=
  names.foldl (fun files name =>
    match memory name with
    | none => files
    | some value => files.write name value) files

/-- The names that are owed once `name` was touched. -/
def touch (name : κ) (owed : List κ) : List κ := owed.erase name ++ [name]

theorem touch_nodup {name : κ} {owed : List κ} (nodup : owed.Nodup) : (touch name owed).Nodup := by
  have absent : name ∉ owed.erase name := fun mem => (nodup.mem_erase_iff.mp mem).1 rfl
  rw [touch, nodup_append]
  refine ⟨nodup.erase name, by simp, fun other mem => ?_⟩
  simp only [mem_singleton, ne_eq, forall_eq]
  rintro rfl
  exact absent mem

theorem mem_touch {name other : κ} {owed : List κ} (nodup : owed.Nodup) :
    other ∈ touch name owed ↔ other = name ∨ other ∈ owed := by
  rw [touch, mem_append, nodup.mem_erase_iff, mem_singleton]
  by_cases same : other = name
  · simp [same]
  · simp [same]

variable {memory : κ → Option ν} {names owed : List κ} {files : Files κ ν}

theorem drain_append (first second : List κ) :
    drain memory (first ++ second) files = drain memory second (drain memory first files) :=
  foldl_append

theorem drain_file (held : ∀ name ∈ names, memory name ≠ none) (name : κ) :
    (drain memory names files).file name =
      if name ∈ names then memory name else files.file name := by
  induction names using List.reverseRecOn with
  | nil => rfl
  | append_singleton first last ih =>
    obtain ⟨value, here⟩ := Option.ne_none_iff_exists'.mp (held last (by simp))
    have before := ih fun other mem => held other (mem_append_left _ mem)
    rw [drain_append]
    simp only [drain, foldl_cons, foldl_nil, here, Files.write, Function.update_apply]
    split
    next same => simp [same, here]
    next other =>
      have later : name ∈ first ++ [last] ↔ name ∈ first := by simp [other]
      simp only [later]
      exact before

theorem drain_latest (held : ∀ name ∈ names, memory name ≠ none) :
    (drain memory names files).latest =
      match names.getLast? with
      | none => files.latest
      | some last => memory last := by
  induction names using List.reverseRecOn with
  | nil => rfl
  | append_singleton first last ih =>
    obtain ⟨value, here⟩ := Option.ne_none_iff_exists'.mp (held last (by simp))
    rw [drain_append, getLast?_concat]
    simp [drain, here, Files.write]

theorem drain_touch (held : ∀ name ∈ owed, memory name ≠ none) (nodup : owed.Nodup) (name : κ)
    (value : ν) :
    drain (Function.update memory name (some value)) (touch name owed) files =
      (drain memory owed files).write name value := by
  have held' : ∀ other ∈ touch name owed,
      Function.update memory name (some value) other ≠ none := by
    intro other mem
    rw [Function.update_apply]
    split
    · simp
    next different => exact held other (((mem_touch nodup).mp mem).resolve_left different)
  refine Files.ext (funext fun other => ?_) ?_
  · have written : ((drain memory owed files).write name value).file other =
        if other = name then some value else (drain memory owed files).file other :=
      Function.update_apply ..
    rw [drain_file held', written, Function.update_apply, drain_file held]
    by_cases same : other = name
    · simp [same, mem_touch nodup]
    · simp [same, mem_touch nodup]
  · rw [drain_latest held', touch, getLast?_concat]
    simp [Files.write]

end Keyed

end Ultrathink.Library.WriteBack
