import Mathlib.Algebra.BigOperators.Group.List.Basic
import NoteQuery.Bytes.Utf8
import NoteQuery.Proofs.Text.Letter

/-!
# Encoded texts

A character is read back from the bytes that it is written with, so every text is.
-/

namespace NoteQuery.Bytes

/-! ## First bytes -/

theorem toNat_ofNat {n : Nat} (h : n < 0x100) : (UInt8.ofNat n).toNat = n := UInt8.toNat_ofNat_of_lt' h

theorem leadInfo?_two {n : Nat} (hlow : 2 ≤ n) (hhigh : n < 0x20) :
    leadInfo? (n + 0xc0) = some (1, n, 0x80, 0xc0) := by
  rw [leadInfo?, if_neg (by omega), if_neg (by omega), if_pos (by omega), Nat.add_sub_cancel]

theorem leadInfo?_three {n : Nat} (h : n < 0x10) :
    leadInfo? (n + 0xe0) = some (2, n, if n = 0 then 0xa0 else 0x80, if n = 0xd then 0xa0 else 0xc0) := by
  rw [leadInfo?, if_neg (by omega), if_neg (by omega), if_neg (by omega), if_pos (by omega), Nat.add_sub_cancel]
  simp only [show n + 0xe0 = 0xe0 ↔ n = 0 by omega, show n + 0xe0 = 0xed ↔ n = 0xd by omega]

theorem leadInfo?_four {n : Nat} (h : n < 5) :
    leadInfo? (n + 0xf0) = some (3, n, if n = 0 then 0x90 else 0x80, if n = 4 then 0x90 else 0xc0) := by
  rw [leadInfo?, if_neg (by omega), if_neg (by omega), if_neg (by omega), if_neg (by omega), if_pos (by omega),
    Nat.add_sub_cancel]
  simp only [show n + 0xf0 = 0xf0 ↔ n = 0 by omega, show n + 0xf0 = 0xf4 ↔ n = 4 by omega]

/-! ## Continuation bytes -/

/-- Six bits of a code point, in a byte that goes on with a character. -/
def continuation (n : Nat) : UInt8 := UInt8.ofNat (n % 0x40 + 0x80)

theorem readTail_continuation {left code low high done n : Nat} (hlow : low ≤ n % 64 + 0x80)
    (hhigh : n % 64 + 0x80 < high) (bs : List UInt8) :
    readTail (left + 1) code low high done (continuation n :: bs) =
      readTail left (code * 64 + n % 64) 0x80 0xc0 (done + 1) bs := by
  rw [readTail, continuation, toNat_ofNat (by omega), if_pos ⟨hlow, hhigh⟩, Nat.add_sub_cancel]

/-! ## Characters -/

section
variable (steps position : Nat) (bs : List UInt8)

theorem decodeFrom_cons {b : UInt8} {left code low high : Nat} (hlead : leadInfo? b.toNat = some (left, code, low, high))
    (tail : List UInt8) {n : Nat} (htail : readTail left code low high 0 (tail ++ bs) = .complete n bs) :
    decodeFrom (steps + 1) position (b :: (tail ++ bs)) =
      (decodeFrom steps (position + left + 1) bs).map (Char.ofNat n :: ·) := by
  rw [decodeFrom, hlead]
  dsimp only
  rw [htail]

theorem decodeFrom_char (c : Char) : ∃ next, decodeFrom (steps + 1) position (String.utf8EncodeChar c ++ bs) =
    (decodeFrom steps next bs).map (c :: ·) := by
  have hc := Text.toNat_cases c
  have hdecode {b : UInt8} {left code low high : Nat} (hlead : leadInfo? b.toNat = some (left, code, low, high))
      (tail : List UInt8) (htail : readTail left code low high 0 (tail ++ bs) = .complete c.toNat bs) :=
    decodeFrom_cons steps position bs hlead tail htail
  rw [Char.ofNat_toNat] at hdecode
  have hbytes : String.utf8EncodeChar c =
      if c.toNat ≤ 0x7f then [UInt8.ofNat c.toNat]
      else if c.toNat ≤ 0x7ff then [UInt8.ofNat (c.toNat / 64 % 0x20 + 0xc0), continuation c.toNat]
      else if c.toNat ≤ 0xffff then
        [UInt8.ofNat (c.toNat / 4096 % 0x10 + 0xe0), continuation (c.toNat / 64), continuation c.toNat]
      else [UInt8.ofNat (c.toNat / 262144 % 0x08 + 0xf0), continuation (c.toNat / 4096), continuation (c.toNat / 64),
        continuation c.toNat] := rfl
  rw [hbytes]
  -- the number of bytes that a character takes, as the encoder chooses it
  split
  · have hlead : leadInfo? (UInt8.ofNat c.toNat).toNat = some (0, c.toNat, 0, 0) := by
      rw [toNat_ofNat (by omega), leadInfo?, if_pos (by omega)]
    exact ⟨_, hdecode hlead [] rfl⟩
  split
  · have hlead : leadInfo? (UInt8.ofNat (c.toNat / 64 % 0x20 + 0xc0)).toNat = some (1, c.toNat / 64 % 0x20, 0x80, 0xc0) := by
      rw [toNat_ofNat (by omega), leadInfo?_two (by omega) (by omega)]
    refine ⟨_, hdecode hlead [_] ?_⟩
    rw [List.singleton_append, readTail_continuation (by omega) (by omega), readTail]
    congr 1
    omega
  split
  · have hlead := leadInfo?_three (n := c.toNat / 4096 % 0x10) (by omega)
    rw [← toNat_ofNat (n := c.toNat / 4096 % 0x10 + 0xe0) (by omega)] at hlead
    refine ⟨_, hdecode hlead [_, _] ?_⟩
    rw [List.cons_append, List.singleton_append, readTail_continuation (by split <;> omega) (by split <;> omega),
      readTail_continuation (by omega) (by omega), readTail]
    congr 1
    omega
  · have hlead := leadInfo?_four (n := c.toNat / 262144 % 0x08) (by omega)
    rw [← toNat_ofNat (n := c.toNat / 262144 % 0x08 + 0xf0) (by omega)] at hlead
    refine ⟨_, hdecode hlead [_, _, _] ?_⟩
    rw [List.cons_append, List.cons_append, List.singleton_append,
      readTail_continuation (by split <;> omega) (by split <;> omega), readTail_continuation (by omega) (by omega),
      readTail_continuation (by omega) (by omega), readTail]
    congr 1
    omega

end

theorem decodeFrom_encodeUtf8 : ∀ (cs : List Char) {steps : Nat} (position : Nat), cs.length ≤ steps →
    decodeFrom steps position (encodeUtf8 cs) = .ok cs
  | [], 0, _, _ => rfl
  | [], _ + 1, _, _ => rfl
  | c :: cs, steps + 1, position, h => by
    obtain ⟨next, hnext⟩ := decodeFrom_char steps position (encodeUtf8 cs) c
    have hrest : encodeUtf8 (c :: cs) = String.utf8EncodeChar c ++ encodeUtf8 cs := rfl
    rw [hrest, hnext, decodeFrom_encodeUtf8 cs next (Nat.le_of_succ_le_succ h)]
    rfl

theorem length_le_encodeUtf8 (cs : List Char) : cs.length ≤ (encodeUtf8 cs).length := by
  have hsum := List.length_le_sum_of_one_le (cs.map fun c => (String.utf8EncodeChar c).length) fun n hn => by
    obtain ⟨c, -, rfl⟩ := List.mem_map.mp hn
    exact List.length_pos_iff.mpr String.utf8EncodeChar_ne_nil
  rwa [List.length_map, ← List.length_flatMap] at hsum

theorem decodeUtf8_encodeUtf8 (cs : List Char) : decodeUtf8 (encodeUtf8 cs) = .ok cs :=
  decodeFrom_encodeUtf8 cs 0 (length_le_encodeUtf8 cs)

end NoteQuery.Bytes
