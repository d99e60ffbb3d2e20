import Mathlib.Tactic.Common
import StructuredQuery.Json.Text
import StructuredQuery.Json.Token

/-!
# Reading quoted strings

The scanner reads the quoted form of a string as that string.  Each character is written
in one of three ways, as itself, as a letter after a backslash or as a code, and is read
as a single piece, which stands for it.
-/

namespace StructuredQuery

open Token (scanFrom Piece joinPieces)

namespace Json

/-- A piece of a string that stands for a character alone. -/
def Stands (piece : Piece) (c : Char) : Prop :=
  piece = .char c ∨ piece = .code c.toNat ∧ c.toNat < 0xd800

/-- Pieces of which each stands for a character are put together to those characters. -/
theorem joinPieces_of_stands {pieces : List Piece} {cs : List Char}
    (h : List.Forall₂ Stands pieces cs) :
  joinPieces none pieces = .ok cs
  := by
  induction h with
  | nil => rfl
  | @cons piece c pieces cs hstands _ ih =>
    rcases hstands with rfl | ⟨rfl, hlow⟩
    · rw [joinPieces, ih]
      rfl
    · have hfirst : Token.isHigh c.toNat = false := by
        simp only [Token.isHigh, Bool.and_eq_false_iff, decide_eq_false_iff_not]
        omega
      have hsecond : Token.isLow c.toNat = false := by
        simp only [Token.isLow, Bool.and_eq_false_iff, decide_eq_false_iff_not]
        omega
      have hjoin : joinPieces none (.code c.toNat :: pieces)
          = (Char.ofNat c.toNat :: ·) <$> joinPieces none pieces := by
        rcases pieces with _ | ⟨next | next, pieces⟩ <;>
          simp [joinPieces, hfirst, hsecond]
      rw [hjoin, ih, Char.ofNat_toNat]
      rfl

theorem hexValue?_hexDigit {n : ℕ} (h : n < 16) :
  Token.hexValue? (hexDigit n) = some n ∧ (hexDigit n).utf8Size = 1
  := by
  revert n
  decide

/-- A character that ends no token. -/
theorem scanFrom_step {mode next : Token.Mode} {c : Char} (h : mode.step c = ([], some next))
    (rest : List Char) :
  scanFrom mode (c :: rest) = scanFrom next rest
  := by
  rw [scanFrom, h]
  rfl

/-- A character that is written as a letter after a backslash. -/
theorem scanFrom_letter {letter c : Char} (h : Token.escaped? letter = some c)
    (hletter : letter ≠ 'u') (pieces : List Piece) (rest : List Char) :
  scanFrom (.string pieces) (['\\', letter] ++ rest) = scanFrom (.string (.char c :: pieces)) rest
  := by
  have hescape : Token.Mode.step (.escape pieces) letter = ([], some (.string (.char c :: pieces)))
      := by
    simp [Token.Mode.step, Token.Mode.escapeStep, h, hletter]
  rw [← scanFrom_step hescape]
  rfl

/-- A character that is written as a code of four digits. -/
theorem scanFrom_code {c : Char} (h : c.toNat < 32) (pieces : List Piece) (rest : List Char) :
  scanFrom (.string pieces)
      (['\\', 'u', '0', '0', hexDigit (c.toNat / 16), hexDigit (c.toNat % 16)] ++ rest)
    = scanFrom (.string (.code c.toNat :: pieces)) rest
  := by
  obtain ⟨hhigh, hhigh_size⟩ := hexValue?_hexDigit (show c.toNat / 16 < 16 by omega)
  obtain ⟨hlow, hlow_size⟩ := hexValue?_hexDigit (show c.toNat % 16 < 16 by omega)
  have hthird : Token.Mode.step (.code pieces 2 (some 0)) (hexDigit (c.toNat / 16))
      = ([], some (.code pieces 3 (some (c.toNat / 16)))) := by
    simp [Token.Mode.step, Token.Mode.codeStep, hhigh, hhigh_size]
  have hvalue : c.toNat / 16 * 16 + c.toNat % 16 = c.toNat := by omega
  have hfourth : Token.Mode.step (.code pieces 3 (some (c.toNat / 16)))
      (hexDigit (c.toNat % 16)) = ([], some (.string (.code c.toNat :: pieces))) := by
    simp [Token.Mode.step, Token.Mode.codeStep, hlow, hlow_size, hvalue]
  rw [← scanFrom_step hfourth, ← scanFrom_step hthird]
  rfl

/-- A written character is read as a piece that stands for it. -/
theorem scanFrom_escapeChar (c : Char) :
  ∃ piece, Stands piece c ∧ ∀ pieces rest,
    scanFrom (.string pieces) (escapeChar c ++ rest) = scanFrom (.string (piece :: pieces)) rest
  := by
  have hletter {letter : Char} (h : Token.escaped? letter = some c) (hletter : letter ≠ 'u') :
      ∃ piece, Stands piece c ∧ ∀ pieces rest, scanFrom (.string pieces) (['\\', letter] ++ rest)
        = scanFrom (.string (piece :: pieces)) rest :=
    ⟨.char c, Or.inl rfl, scanFrom_letter h hletter⟩
  rw [escapeChar]
  split_ifs with hquote hslash hback hfeed hline hreturn htab hcontrol
  · apply hletter (by rw [hquote]; rfl) (by decide)
  · apply hletter (by rw [hslash]; rfl) (by decide)
  · apply hletter (by rw [hback]; rfl) (by decide)
  · apply hletter (by rw [hfeed]; rfl) (by decide)
  · apply hletter (by rw [hline]; rfl) (by decide)
  · apply hletter (by rw [hreturn]; rfl) (by decide)
  · apply hletter (by rw [htab]; rfl) (by decide)
  · use .code c.toNat, Or.inr ⟨rfl, by omega⟩
    apply scanFrom_code hcontrol
  · use .char c, Or.inl rfl
    intro pieces rest
    apply scanFrom_step
    simp [Token.Mode.step, Token.Mode.stringStep, hquote, hslash, hcontrol]

/-- Written characters are read as pieces that stand for them. -/
theorem scanFrom_escapeChars (cs : List Char) :
  ∃ read, List.Forall₂ Stands read cs ∧ ∀ pieces rest,
    scanFrom (.string pieces) (cs.flatMap escapeChar ++ rest)
      = scanFrom (.string (read.reverse ++ pieces)) rest
  := by
  induction cs with
  | nil => exact ⟨[], .nil, fun _ _ => rfl⟩
  | cons c cs ih =>
    obtain ⟨piece, hstands, hpiece⟩ := scanFrom_escapeChar c
    obtain ⟨read, hread, hscan⟩ := ih
    use piece :: read, .cons hstands hread
    intro pieces rest
    rw [List.flatMap_cons, List.append_assoc, hpiece, hscan, List.reverse_cons, List.append_assoc]
    rfl

/-- A quoted string is read as that string. -/
theorem scanFrom_quote (text : String) (rest : List Char) :
  scanFrom .between (quote text ++ rest) = .string (.ok text) :: scanFrom .between rest
  := by
  obtain ⟨read, hread, hscan⟩ := scanFrom_escapeChars text.toList
  have hclosed : scanFrom (.string (read.reverse ++ [])) ('"' :: rest)
      = Token.ofPieces read :: scanFrom .between rest := by
    simp [scanFrom, Token.Mode.step, Token.Mode.stringStep]
  have htoken : Token.ofPieces read = .string (.ok text) := by
    rw [Token.ofPieces, joinPieces_of_stands hread]
    simp [Functor.map, Except.map]
  rw [← htoken, ← hclosed, ← hscan, quote, List.append_assoc]
  rfl

end Json

end StructuredQuery
