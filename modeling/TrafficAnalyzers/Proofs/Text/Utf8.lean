import Mathlib.Data.List.Basic
import TrafficAnalyzers.Path
/-!
Reading bytes as UTF-8. Main statement: what is read from an encoded text is that text, and at an
ASCII byte what stands before it and what stands after it are read apart.
-/
namespace TrafficAnalyzers.Text.Utf8

theorem piecesFrom_cons (s : State) (b : UInt8) (bs : List UInt8) :
    piecesFrom s (b :: bs) = (step s b).1 ++ piecesFrom (step s b).2 bs := by
  cases s <;> rfl

theorem first_ascii {b : UInt8} (hb : b < 0x80) :
    first b = ([some (Char.ofNat b.toNat)], .start) := by
  have hlt : b.toNat < 0x80 := UInt8.lt_iff_toNat_lt.mp hb
  rw [first, if_pos hlt]

section Encoded

variable {n : Nat} (bs : List UInt8)

theorem piecesFrom_one (h : n < 0x80) :
    piecesFrom .start (UInt8.ofNat n :: bs) = some (Char.ofNat n) :: piecesFrom .start bs := by
  have hb : (UInt8.ofNat n).toNat = n := UInt8.toNat_ofNat_of_lt (show n < 256 by omega)
  have hascii : UInt8.ofNat n < 0x80 := by
    rw [UInt8.lt_iff_toNat_lt, hb]
    exact h
  rw [piecesFrom_cons, step, first_ascii hascii, hb]
  rfl

theorem piecesFrom_two (h : 0xC2 ≤ n) (h' : n < 0xE0) :
    piecesFrom .start (UInt8.ofNat n :: bs) =
      piecesFrom (.inside (n - 0xC0) 0x80 0xBF 1) bs := by
  have hb : (UInt8.ofNat n).toNat = n := UInt8.toNat_ofNat_of_lt (show n < 256 by omega)
  rw [piecesFrom_cons, step, first, hb, if_neg (by omega), if_neg (by omega), if_pos h']
  rfl

/-- The second of three bytes is bounded so that nothing short and no surrogate is written. -/
theorem piecesFrom_three (h : 0xE0 ≤ n) (h' : n < 0xF0) :
    piecesFrom .start (UInt8.ofNat n :: bs) =
      piecesFrom (.inside (n - 0xE0) (if n = 0xE0 then 0xA0 else 0x80)
        (if n = 0xED then 0x9F else 0xBF) 2) bs := by
  have hb : (UInt8.ofNat n).toNat = n := UInt8.toNat_ofNat_of_lt (show n < 256 by omega)
  rw [piecesFrom_cons, step, first, hb, if_neg (by omega), if_neg (by omega), if_neg (by omega)]
  by_cases hfirst : n = 0xE0
  · subst hfirst
    rfl
  by_cases hsurrogate : n = 0xED
  · subst hsurrogate
    rfl
  simp [hfirst, hsurrogate, h']

/-- The second of four bytes is bounded so that nothing short and nothing too large is written. -/
theorem piecesFrom_four (h : 0xF0 ≤ n) (h' : n ≤ 0xF4) :
    piecesFrom .start (UInt8.ofNat n :: bs) =
      piecesFrom (.inside (n - 0xF0) (if n = 0xF0 then 0x90 else 0x80)
        (if n = 0xF4 then 0x8F else 0xBF) 3) bs := by
  obtain rfl | rfl | rfl | rfl | rfl : n = 0xF0 ∨ n = 0xF1 ∨ n = 0xF2 ∨ n = 0xF3 ∨ n = 0xF4 := by
    omega
  all_goals rfl

/-- A byte that goes on with a character adds six bits to it, and ends it if no more are due. -/
theorem piecesFrom_inside {value owed : Nat} {low high : UInt8} (hlow : low.toNat ≤ n)
    (hhigh : n ≤ high.toNat) :
    piecesFrom (.inside value low high owed) (UInt8.ofNat n :: bs) =
      if owed ≤ 1 then some (Char.ofNat (value * 64 + n % 64)) :: piecesFrom .start bs
      else piecesFrom (.inside (value * 64 + n % 64) 0x80 0xBF (owed - 1)) bs := by
  have hb : (UInt8.ofNat n).toNat = n :=
    UInt8.toNat_ofNat_of_lt (Nat.lt_of_le_of_lt hhigh high.toNat_lt)
  have hrange : low ≤ UInt8.ofNat n ∧ UInt8.ofNat n ≤ high := by
    rw [UInt8.le_iff_toNat_le, UInt8.le_iff_toNat_le, hb]
    exact ⟨hlow, hhigh⟩
  rw [piecesFrom_cons, step, if_pos hrange, hb]
  split <;> rfl

/-- One more byte is due. -/
theorem piecesFrom_owed_one {value : Nat} (h : n < 64) :
    piecesFrom (.inside value 0x80 0xBF 1) (UInt8.ofNat (n + 0x80) :: bs) =
      some (Char.ofNat (value * 64 + n)) :: piecesFrom .start bs := by
  have hbits : (n + 0x80) % 64 = n := by omega
  rw [piecesFrom_inside bs (show 0x80 ≤ n + 0x80 by omega) (show n + 0x80 ≤ 0xBF by omega),
    if_pos (Nat.le_refl 1), hbits]

/-- Two more are due, the first of them between given bounds. -/
theorem piecesFrom_owed_two {value m : Nat} {low high : UInt8} (h : n < 64)
    (hlow : low.toNat ≤ n + 0x80) (hhigh : n + 0x80 ≤ high.toNat) (hm : m < 64) :
    piecesFrom (.inside value low high 2)
        (UInt8.ofNat (n + 0x80) :: UInt8.ofNat (m + 0x80) :: bs) =
      some (Char.ofNat ((value * 64 + n) * 64 + m)) :: piecesFrom .start bs := by
  have hbits : (n + 0x80) % 64 = n := by omega
  rw [piecesFrom_inside _ hlow hhigh, if_neg (by decide), hbits, piecesFrom_owed_one bs hm]

end Encoded

/-- A character is read from its bytes. -/
theorem piecesFrom_encodeChar (c : Char) (bs : List UInt8) :
    piecesFrom .start (String.utf8EncodeChar c ++ bs) = some c :: piecesFrom .start bs := by
  have hvalid : c.val.toNat < 0xD800 ∨ 0xDFFF < c.val.toNat ∧ c.val.toNat < 0x110000 := c.valid
  have hc : Char.ofNat c.val.toNat = c := Char.ofNat_toNat c
  unfold String.utf8EncodeChar
  generalize c.val.toNat = v at hvalid hc ⊢
  dsimp only
  split
  next h1 =>
    rw [List.singleton_append, piecesFrom_one _ (by omega), hc]
  split
  next h2 =>
    have hv : (v / 64 % 32 + 192 - 192) * 64 + v % 64 = v := by omega
    rw [List.cons_append, List.singleton_append, piecesFrom_two _ (by omega) (by omega),
      piecesFrom_owed_one _ (by omega), hv, hc]
  split
  next h3 =>
    have hv : ((v / 4096 % 16 + 224 - 224) * 64 + v / 64 % 64) * 64 + v % 64 = v := by omega
    rw [List.cons_append, List.cons_append, List.singleton_append,
      piecesFrom_three _ (by omega) (by omega), piecesFrom_owed_two _ (by omega) ?_ ?_ (by omega),
      hv, hc]
    · split
      · show 0xA0 ≤ v / 64 % 64 + 128
        omega
      · show 0x80 ≤ v / 64 % 64 + 128
        omega
    · split
      · show v / 64 % 64 + 128 ≤ 0x9F
        omega
      · show v / 64 % 64 + 128 ≤ 0xBF
        omega
  next h4 =>
    have hv : (((v / 262144 % 8 + 240 - 240) * 64 + v / 4096 % 64) * 64 + v / 64 % 64) * 64 +
      v % 64 = v := by omega
    have hbits : (v / 4096 % 64 + 128) % 64 = v / 4096 % 64 := by omega
    rw [List.cons_append, List.cons_append, List.cons_append, List.singleton_append,
      piecesFrom_four _ (by omega) (by omega), piecesFrom_inside _ ?_ ?_, if_neg (by decide), hbits,
      piecesFrom_owed_two _ (by omega) (show 0x80 ≤ v / 64 % 64 + 128 by omega)
        (show v / 64 % 64 + 128 ≤ 0xBF by omega) (by omega), hv, hc]
    · split
      · show 0x90 ≤ v / 4096 % 64 + 128
        omega
      · show 0x80 ≤ v / 4096 % 64 + 128
        omega
    · split
      · show v / 4096 % 64 + 128 ≤ 0x8F
        omega
      · show v / 4096 % 64 + 128 ≤ 0xBF
        omega

/-- An encoded text is read character by character. -/
theorem pieces_encode (cs : List Char) : pieces (encode cs) = cs.map some := by
  induction cs with
  | nil => rfl
  | cons c cs ih =>
    rw [encode, List.flatMap_cons, pieces, piecesFrom_encodeChar, List.map_cons]
    exact congrArg (some c :: ·) ih

theorem lossy_encode (cs : List Char) : lossy (encode cs) = cs := by
  rw [lossy, pieces_encode, List.map_map]
  exact List.map_id cs

/-- No byte that is due is an ASCII byte. -/
def State.Sound : State → Prop
  | .start => True
  | .inside _ low _ _ => 0x80 ≤ low

theorem sound_ite {c : Prop} [Decidable c] {x y : List (Option Char) × State} (hx : x.2.Sound)
    (hy : y.2.Sound) : (if c then x else y).2.Sound := by
  split
  · exact hx
  · exact hy

theorem sound_first (b : UInt8) : (first b).2.Sound := by
  have h80 : (0x80 : UInt8) ≤ 0x80 := UInt8.le_refl _
  have h90 : (0x80 : UInt8) ≤ 0x90 := by decide
  have hA0 : (0x80 : UInt8) ≤ 0xA0 := by decide
  -- one branch for each range of first bytes
  exact sound_ite trivial <| sound_ite trivial <| sound_ite h80 <| sound_ite hA0 <| sound_ite h80 <|
    sound_ite h80 <| sound_ite h90 <| sound_ite h80 <| sound_ite h80 trivial

theorem sound_step (s : State) (b : UInt8) : (step s b).2.Sound := by
  cases s with
  | start => exact sound_first b
  | inside value low high owed =>
    rw [step]
    split
    · dsimp only
      split <;> simp [State.Sound]
    · exact sound_first b

/-- An ASCII byte is read for itself, and what is due then is ill-formed. -/
theorem piecesFrom_append_ascii {b : UInt8} (hb : b < 0x80) {s : State} (hs : s.Sound)
    (as bs : List UInt8) : piecesFrom s (as ++ b :: bs) =
      piecesFrom s as ++ some (Char.ofNat b.toNat) :: piecesFrom .start bs := by
  induction as generalizing s with
  | nil =>
    rw [List.nil_append, piecesFrom_cons]
    cases s with
    | start =>
      rw [step, first_ascii hb]
      rfl
    | inside value low high owed =>
      have hlow : ¬(low ≤ b ∧ b ≤ high) := fun h =>
        absurd (UInt8.le_trans hs h.1) (UInt8.not_le.mpr hb)
      rw [step, if_neg hlow, first_ascii hb]
      rfl
  | cons a as ih =>
    rw [List.cons_append, piecesFrom_cons, piecesFrom_cons, ih (sound_step s a), List.append_assoc]

theorem lossy_append_ascii {b : UInt8} (hb : b < 0x80) (as bs : List UInt8) :
    lossy (as ++ b :: bs) = lossy as ++ Char.ofNat b.toNat :: lossy bs := by
  simp only [lossy, pieces, piecesFrom_append_ascii hb (s := .start) trivial, List.map_append,
    List.map_cons, Option.getD_some]

end TrafficAnalyzers.Text.Utf8

namespace TrafficAnalyzers.Path

/-- What is written as a path is shown as it was written. -/
@[simp] theorem text_ofString (s : String) : (ofString s).text = s := by
  rw [text, ofString, Text.Utf8.lossy_encode, String.ofList_toList]

end TrafficAnalyzers.Path
