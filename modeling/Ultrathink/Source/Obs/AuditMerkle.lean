import Ultrathink.Library.JsNumber
import Ultrathink.Library.Merkle
import Ultrathink.Library.Sha256

/-!
# The frontier of the audit chain

`obs/audit-merkle.ts`. A frontier's peaks stand newest first here, at the end of the array in the
source. What `seedFrontier` is offered is any value: a number that is no integer, and a value of
another type, is absent.
-/

namespace Ultrathink.Source.Obs.AuditMerkle

open Library JsText JsNumber Merkle Sha256

/-- 64 lowercase hex characters. -/
abbrev HexHash : Type := { t : Text // isHex64 t = true }

def HexHash.bytes (h : HexHash) : List UInt8 := unhex h.1

/-- Root of an empty frontier: 64 zero hex digits. -/
def EMPTY_ROOT : HexHash := ⟨List.replicate 64 0x30, by decide⟩

def badHash : Text := js "hash must be 64 lowercase hex characters"

def assertHash (value : Option Text) : Except Text HexHash :=
  match value with
  | some t => if hex64 : isHex64 t = true then .ok ⟨t, hex64⟩ else .error badHash
  | none => .error badHash

def leafHash (recordHash : HexHash) : HexHash :=
  ⟨sha256Hex (0x00 :: recordHash.bytes), isHex64_sha256Hex _⟩

def nodeHash (left right : HexHash) : HexHash :=
  ⟨sha256Hex (0x01 :: (left.bytes ++ right.bytes)), isHex64_sha256Hex _⟩

def hashing : Hashing HexHash HexHash := ⟨leafHash, nodeHash⟩

abbrev MerkleFrontier := Frontier HexHash

def createFrontier : MerkleFrontier := .empty

def MerkleFrontier.push (f : MerkleFrontier) (recordHash : Option Text) :
    Except Text MerkleFrontier := do
  let hash ← assertHash recordHash
  return Library.Merkle.push hashing f hash

def MerkleFrontier.root (f : MerkleFrontier) : HexHash :=
  Library.Merkle.root hashing EMPTY_ROOT f

structure PeakInput where
  height : Option ℤ
  hash : Option Text

structure StateInput where
  leafCount : Option ℤ
  peaks : Option (List (Option PeakInput))

def peakInput (p : Peak HexHash) : Option PeakInput := some ⟨some p.height, some p.hash.1⟩

def MerkleFrontier.snapshot (f : MerkleFrontier) : StateInput :=
  ⟨some f.size, some (f.peaks.reverse.map peakInput)⟩

def maxSafeInteger : Nat := 9007199254740991

/-- A safe integer that is not negative. -/
def safeNat (value : Option ℤ) : Option Nat :=
  match value with
  | some n => if 0 ≤ n ∧ n ≤ maxSafeInteger then some n.toNat else none
  | none => none

/-- The set bits of the count, highest first. -/
def peakHeightsOf (leafCount : Nat) : List Nat := (bits leafCount 0).reverse

def restorePeak (leafCount index : Nat) (previous : Option Nat) (wanted : Nat)
    (peak : Option PeakInput) : Except Text (Peak HexHash) :=
  match peak with
  | none => .error (js "peak " ++ digits index ++ js " must be an object")
  | some peak =>
    match safeNat peak.height with
    | none =>
      .error (js "peak " ++ digits index ++ js " height must be a non-negative safe integer")
    | some height =>
      match assertHash peak.hash with
      | .error message => .error message
      | .ok hash =>
        if previous.any (· ≤ height) then
          .error (js "peak " ++ digits index ++ js " height " ++ digits height ++
            js " is not strictly decreasing")
        else if height ≠ wanted then
          .error (js "peak " ++ digits index ++ js " height " ++ digits height ++ js " must be " ++
            digits wanted ++ js " for leafCount " ++ digits leafCount)
        else .ok ⟨height, hash⟩

def restorePeaks (leafCount : Nat) : Nat → Option Nat → List Nat → List (Option PeakInput) →
    Except Text (List (Peak HexHash))
  | index, previous, wanted :: heights, peak :: peaks =>
    match restorePeak leafCount index previous wanted peak with
    | .error message => .error message
    | .ok p =>
      match restorePeaks leafCount (index + 1) (some p.height) heights peaks with
      | .error message => .error message
      | .ok rest => .ok (p :: rest)
  | _, _, _, _ => .ok []

def seedFrontier (state : Option StateInput) : Except Text MerkleFrontier :=
  match state with
  | none => .error (js "frontier state must be an object")
  | some state =>
    match safeNat state.leafCount with
    | none => .error (js "leafCount must be a non-negative safe integer")
    | some leafCount =>
      match state.peaks with
      | none => .error (js "peaks must be an array")
      | some peaks =>
        let heights := peakHeightsOf leafCount
        if peaks.length ≠ heights.length then
          .error (js "leafCount " ++ digits leafCount ++ js " needs " ++ digits heights.length ++
            js " peaks, got " ++ digits peaks.length)
        else
          match restorePeaks leafCount 0 none heights peaks with
          | .error message => .error message
          | .ok restored => .ok ⟨leafCount, restored.reverse⟩

end Ultrathink.Source.Obs.AuditMerkle
