import Ultrathink.Source.Obs.AuditMerkle

/-!
# The audit frontier is an RFC 6962 tree

The root of every list that is not empty is its Merkle tree hash, a frontier that was saved and
restored goes on to the same root, and the states that are restored are those with one peak for
each set bit of the count. The root of the empty list is not the hash of RFC 6962.
-/

namespace Ultrathink.Guarantees.MerkleFrontier

open List Library JsText Merkle Sha256 Source.Obs.AuditMerkle

/-- The two hash functions of RFC 6962, on bytes. -/
def rfc6962 : Hashing (List UInt8) (List UInt8) :=
  ⟨fun d => sha256 (0x00 :: d), fun left right => sha256 (0x01 :: (left ++ right))⟩

/-- The Merkle tree hash of RFC 6962. -/
def merkleTreeHash (leaves : List (List UInt8)) : List UInt8 :=
  treeHash rfc6962 (sha256 []) leaves

def frontierOf (leaves : List HexHash) : MerkleFrontier := pushAll hashing createFrontier leaves

theorem bytes_leafHash (a : HexHash) : (leafHash a).bytes = rfc6962.leaf a.bytes := unhex_hex _

theorem bytes_nodeHash (left right : HexHash) :
    (nodeHash left right).bytes = rfc6962.node left.bytes right.bytes := unhex_hex _

variable {n leafCount index : Nat} {leaves : List HexHash} {previous : Option Nat}
  {heights : List Nat}

theorem root_frontierOf (some_ : leaves ≠ []) :
    (frontierOf leaves).root.bytes = merkleTreeHash (leaves.map HexHash.bytes) := by
  have whole := @root_pushAll _ _ hashing ⟨sha256Hex [], isHex64_sha256Hex []⟩ EMPTY_ROOT leaves
    some_
  rw [MerkleFrontier.root, frontierOf, createFrontier, whole]
  have empty : HexHash.bytes ⟨sha256Hex [], isHex64_sha256Hex []⟩ = sha256 [] := unhex_hex _
  exact treeHash_map (H := hashing) (g := HexHash.bytes) empty bytes_leafHash bytes_nodeHash leaves

/-- One peak for each set bit of the count, highest first, under a valid hash. -/
structure Restorable (state : StateInput) (f : MerkleFrontier) : Prop where
  leafCount : state.leafCount = some (f.size : ℤ)
  safe : f.size ≤ maxSafeInteger
  peaks : state.peaks = some (f.peaks.reverse.map peakInput)
  descending : (f.peaks.reverse.map Peak.height).Pairwise (· > ·)
  setBits : ∀ height, height ∈ f.peaks.reverse.map Peak.height ↔ f.size.testBit height = true

theorem safeNat_eq_some {value : Option ℤ} :
    safeNat value = some n ↔ value = some (n : ℤ) ∧ n ≤ maxSafeInteger := by
  cases value with
  | none => simp [safeNat]
  | some v =>
    simp only [safeNat]
    split
    · next range =>
      rw [Option.some.injEq, Option.some.injEq]
      constructor
      · rintro rfl
        constructor <;> omega
      · rintro ⟨rfl, -⟩
        exact Int.toNat_natCast n
    · next outside =>
      simp only [Option.some.injEq, reduceCtorEq, false_iff, not_and]
      omega

theorem assertHash_ok {value : Option Text} {hash : HexHash} :
    assertHash value = .ok hash ↔ value = some hash.1 := by
  cases value with
  | none => simp [assertHash]
  | some t =>
    simp only [assertHash]
    split
    · next hex64 =>
      rw [Except.ok.injEq, Option.some.injEq]
      constructor
      · rintro rfl
        rfl
      · intro same
        exact Subtype.ext same
    · next other =>
      simp only [reduceCtorEq, Option.some.injEq, false_iff]
      intro same
      exact other (same ▸ hash.2)

theorem restorePeak_ok {wanted : Nat} {peak : Option PeakInput} {p : Peak HexHash} :
    restorePeak leafCount index previous wanted peak = .ok p ↔
      peak = peakInput p ∧ p.height ≤ maxSafeInteger ∧ p.height = wanted ∧
        ∀ h ∈ previous, p.height < h := by
  constructor
  · intro restored
    unfold restorePeak at restored
    split at restored
    · cases restored
    · next peak =>
      split at restored
      · cases restored
      · next height read =>
        split at restored
        · cases restored
        · next hash hashed =>
          split at restored
          · cases restored
          · next below =>
            split at restored
            · cases restored
            · next same =>
              obtain rfl := Except.ok.inj restored
              obtain ⟨readHeight, safe⟩ := safeNat_eq_some.mp read
              refine ⟨?_, safe, not_not.mp same, ?_⟩
              · rw [peakInput, ← readHeight, ← assertHash_ok.mp hashed]
              · intro h mem
                rw [Option.any_eq_true] at below
                exact Nat.lt_of_not_le fun le => below ⟨h, mem, decide_eq_true le⟩
  · rintro ⟨rfl, safe, rfl, below⟩
    have read : safeNat (some (p.height : ℤ)) = some p.height := safeNat_eq_some.mpr ⟨rfl, safe⟩
    have hashed : assertHash (some p.hash.1) = .ok p.hash := assertHash_ok.mpr rfl
    have order : previous.any (fun h => decide (h ≤ p.height)) = false := by
      rw [Option.any_eq_false]
      intro h mem
      have lt := below h mem
      exact decide_eq_false (Nat.not_le_of_lt lt)
    simp only [restorePeak, peakInput, read, hashed, order, Bool.false_eq_true, if_false, ne_eq,
      not_true_eq_false]

theorem restorePeaks_ok {peaks : List (Option PeakInput)} {restored : List (Peak HexHash)}
    (length : peaks.length = heights.length) (descending : heights.Pairwise (· > ·))
    (below : ∀ h ∈ previous, ∀ height ∈ heights, height < h)
    (safe : ∀ height ∈ heights, height ≤ maxSafeInteger) :
    restorePeaks leafCount index previous heights peaks = .ok restored ↔
      peaks = restored.map peakInput ∧ restored.map Peak.height = heights := by
  induction heights generalizing index previous peaks restored with
  | nil =>
    obtain rfl := length_eq_zero_iff.mp length
    rw [restorePeaks, Except.ok.injEq]
    constructor
    · rintro rfl
      exact ⟨rfl, rfl⟩
    · rintro ⟨none_, -⟩
      exact (map_eq_nil_iff.mp none_.symm).symm
    · simp
  | cons wanted heights ih =>
    cases peaks with
    | nil => cases length
    | cons peak peaks =>
      obtain ⟨lower, rest⟩ := pairwise_cons.mp descending
      have tail (p : Peak HexHash) (same : p.height = wanted) (others : List (Peak HexHash)) :
          restorePeaks leafCount (index + 1) (some p.height) heights peaks = .ok others ↔
            peaks = others.map peakInput ∧ others.map Peak.height = heights := by
        refine ih (Nat.succ.inj length) rest ?_ fun h mem => safe h (mem_cons_of_mem _ mem)
        intro h mem height inRest
        obtain rfl := Option.mem_some_iff.mp mem
        exact same ▸ lower height inRest
      unfold restorePeaks
      constructor
      · intro done
        split at done
        · cases done
        · next p first =>
          obtain ⟨rfl, -, same, -⟩ := restorePeak_ok.mp first
          split at done
          · cases done
          · next others later =>
            obtain rfl := Except.ok.inj done
            obtain ⟨rfl, heightsEq⟩ := (tail p same others).mp later
            exact ⟨rfl, by rw [map_cons, same, heightsEq]⟩
      · rintro ⟨inputs, heightsEq⟩
        cases restored with
        | nil => cases heightsEq
        | cons p others =>
          obtain ⟨rfl, rfl⟩ := List.cons.inj inputs
          obtain ⟨same, heightsEq⟩ := List.cons.inj heightsEq
          have first : restorePeak leafCount index previous wanted (peakInput p) = .ok p :=
            restorePeak_ok.mpr ⟨rfl, same ▸ safe wanted mem_cons_self, same,
              fun h mem => same ▸ below h mem wanted mem_cons_self⟩
          rw [first]
          dsimp only
          rw [(tail p same others).mpr ⟨rfl, heightsEq⟩]

theorem mem_peakHeightsOf {height : Nat} :
    height ∈ peakHeightsOf n ↔ n.testBit height = true := by
  rw [peakHeightsOf, mem_reverse, mem_bits]
  simp

theorem peakHeightsOf_descending (n : Nat) : (peakHeightsOf n).Pairwise (· > ·) := by
  rw [peakHeightsOf, pairwise_reverse]
  exact bits_increasing n 0

theorem peakHeightsOf_safe (safe : n ≤ maxSafeInteger) :
    ∀ height ∈ peakHeightsOf n, height ≤ maxSafeInteger := by
  intro height mem
  have le := Nat.ge_two_pow_of_testBit (mem_peakHeightsOf.mp mem)
  have lt := Nat.lt_two_pow_self (n := height)
  omega

theorem eq_peakHeightsOf (descending : heights.Pairwise (· > ·))
    (setBits : ∀ height, height ∈ heights ↔ n.testBit height = true) :
    heights = peakHeightsOf n := by
  have perm : heights.Perm (peakHeightsOf n) := by
    apply (perm_ext_iff_of_nodup ?_ ?_).mpr
    · intro height
      rw [setBits, mem_peakHeightsOf]
    · exact descending.imp fun gt => Nat.ne_of_gt gt
    · exact (peakHeightsOf_descending n).imp fun gt => Nat.ne_of_gt gt
  refine perm.eq_of_pairwise ?_ descending (peakHeightsOf_descending n)
  intro a b _ _ gt lt
  exact absurd gt (Nat.lt_asymm lt)

theorem seedFrontier_ok {state : StateInput} {f : MerkleFrontier} :
    seedFrontier (some state) = .ok f ↔ Restorable state f := by
  constructor
  · intro seeded
    unfold seedFrontier at seeded
    dsimp only at seeded
    split at seeded
    · cases seeded
    · next n read =>
      obtain ⟨leafCount, safe⟩ := safeNat_eq_some.mp read
      split at seeded
      · cases seeded
      · next peaks given =>
        split at seeded
        · cases seeded
        · next length =>
          split at seeded
          · cases seeded
          · next restored done =>
            obtain rfl := Except.ok.inj seeded
            obtain ⟨inputs, heights⟩ := (restorePeaks_ok (not_not.mp length)
              (peakHeightsOf_descending n) (by simp) (peakHeightsOf_safe safe)).mp done
            refine ⟨leafCount, safe, ?_, ?_, ?_⟩
            · rw [given, inputs, reverse_reverse]
            · rw [reverse_reverse, heights]
              exact peakHeightsOf_descending n
            · intro height
              rw [reverse_reverse, heights]
              exact mem_peakHeightsOf
  · rintro ⟨leafCount, safe, peaks, descending, setBits⟩
    have read : safeNat state.leafCount = some f.size := safeNat_eq_some.mpr ⟨leafCount, safe⟩
    have heights := eq_peakHeightsOf descending setBits
    have length : (f.peaks.reverse.map peakInput).length = (peakHeightsOf f.size).length := by
      rw [← heights, length_map, length_map]
    have done : restorePeaks f.size 0 none (peakHeightsOf f.size) (f.peaks.reverse.map peakInput) =
        .ok f.peaks.reverse :=
      (restorePeaks_ok length (peakHeightsOf_descending _) (by simp)
        (peakHeightsOf_safe safe)).mpr ⟨rfl, heights⟩
    unfold seedFrontier
    dsimp only
    rw [read]
    dsimp only
    rw [peaks]
    dsimp only
    rw [if_neg (not_not.mpr length), done]
    dsimp only
    rw [reverse_reverse]

theorem restorable_snapshot (safe : leaves.length ≤ maxSafeInteger) :
    Restorable (frontierOf leaves).snapshot (frontierOf leaves) := by
  have size : (frontierOf leaves).size = leaves.length := by
    rw [frontierOf, pushAll_size]
    exact Nat.zero_add _
  have shaped : (frontierOf leaves).Shaped := pushAll_shaped empty_shaped leaves
  have heights : (frontierOf leaves).peaks.reverse.map Peak.height =
      peakHeightsOf (frontierOf leaves).size := by
    rw [map_reverse, shaped]
    rfl
  refine ⟨rfl, size ▸ safe, rfl, ?_, ?_⟩
  · rw [heights]
    exact peakHeightsOf_descending _
  · rw [heights]
    exact fun height => mem_peakHeightsOf

/-- The root of a list that is not empty is that of RFC 6962, also over a snapshot taken at any
cut, and the states that are restored have the set bits of the count for heights. -/
theorem frontier_rfc6962 :
    (∀ leaves, leaves ≠ [] →
      (frontierOf leaves).root.bytes = merkleTreeHash (leaves.map HexHash.bytes)) ∧
    (frontierOf []).root = EMPTY_ROOT ∧
    (∀ first rest, first.length ≤ maxSafeInteger →
      ∃ f, seedFrontier (some (frontierOf first).snapshot) = .ok f ∧
        MerkleFrontier.root (pushAll hashing f rest) = (frontierOf (first ++ rest)).root) ∧
    ∀ state f, seedFrontier (some state) = .ok f ↔ Restorable state f := by
  refine ⟨fun leaves some_ => root_frontierOf some_, rfl, ?_, fun state f => seedFrontier_ok⟩
  intro first rest safe
  refine ⟨frontierOf first, seedFrontier_ok.mpr (restorable_snapshot safe), ?_⟩
  rw [frontierOf, frontierOf, pushAll_append]

/-- The root of the empty list is 64 zero digits, and not the hash of no bytes. -/
theorem empty_root_differs :
    (frontierOf []).root.bytes ≠ merkleTreeHash ([].map HexHash.bytes) := by
  have empty : merkleTreeHash ([].map HexHash.bytes) = sha256 [] := treeHash_nil
  rw [empty]
  decide +kernel

end Ultrathink.Guarantees.MerkleFrontier
