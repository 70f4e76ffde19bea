import Summand.Proofs.AsciiBytes
import Summand.Proofs.Evaluation
import Summand.Proofs.Seams
import Summand.Proofs.SourceReading
import Summand.Proofs.TreeRecovery

/-! A tree is drawn with few characters, whatever characters its source has. The texts of
the tokens are not drawn, the names of their kinds are made of letters, and the values that
numerals are read as have no sign. So nothing that a terminal takes for a command can come
from a source. -/
namespace Summand.TreeAlphabet
open AsciiBytes Evaluation Scanning Seams Significance SourceReading Spelling SumReading
open TreeRecovery

/-- The characters that trees are drawn with. -/
def Drawable (c : Char) : Prop :=
  c = '\n' ∨ c = ' ' ∨ c.isAlpha = true ∨ c.isDigit = true ∨ c ∈ ['├', '└', '│', '─']

instance : DecidablePred Drawable := fun c => inferInstanceAs
  (Decidable (c = '\n' ∨ c = ' ' ∨ c.isAlpha = true ∨ c.isDigit = true ∨ _))

/-- A value without a sign, if there is one at all. -/
def Unsigned (value : Option Int) : Prop := ∀ number ∈ value, 0 ≤ number

variable {position : Nat} {source : List Char} {token leaf : Token} {expr : Expr} {row : Row}
  {value : Option Int}

theorem ofRun_unsigned (kind : Kind) (position : Nat) (run : List Char) :
    Unsigned (Token.ofRun kind position run).value.value := by
  intro number held
  unfold Token.ofRun at held
  split at held
  · cases held
    exact Int.natCast_nonneg _
  · cases held

theorem kept_unsigned (position : Nat) (source : List Char) :
    ∀ token ∈ kept position source, Unsigned token.value := by
  induction position, source using kept_induction with
  | atEnd position => simp [kept_nil]
  | atTrivia position c others trivia ih => rwa [kept_trivia position trivia]
  | atRun position c run rest significant joins boundary ih =>
    rw [kept_run position significant joins boundary, List.forall_mem_cons]
    exact ⟨ofRun_unsigned _ position _, ih⟩

/-- The values in the tree of a source have no sign. -/
theorem ofSource_unsigned (source : String) :
    ∀ leaf ∈ (Expr.ofSource source).value.leaves, Unsigned leaf.value := by
  obtain ⟨_, leaves, _⟩ := parse_taken source
  intro leaf member
  have read : leaf ∈ mended 0 true (taken source) := leaves ▸ member
  rcases mem_mended read with inside | ⟨place, rfl⟩
  · exact kept_unsigned 0 _ leaf ((taken_front source).subset inside)
  · simp [Unsigned, Token.placeholder]

/-- A row shows the value of a leaf or none. -/
theorem rows_unsigned (unsigned : ∀ leaf ∈ expr.leaves, Unsigned leaf.value) (indent : String)
    (isLast : Bool) : ∀ row ∈ expr.rows indent isLast, Unsigned row.value := by
  have none : Unsigned none := by simp [Unsigned]
  induction expr generalizing indent isLast with
  | number token =>
    simp only [Expr.rows, List.forall_mem_cons]
    exact ⟨none, unsigned token (by simp [Expr.leaves]), by simp⟩
  | binary left operator right leftRows rightRows =>
    simp only [Expr.leaves, List.forall_mem_append, List.forall_mem_cons] at unsigned
    obtain ⟨leftLeaves, own, rightLeaves⟩ := unsigned
    simp only [Expr.rows, List.forall_mem_append, List.forall_mem_cons]
    exact ⟨none, leftRows leftLeaves _ false, own, rightRows rightLeaves _ true⟩

theorem write_digits {number : Int} (unsigned : 0 ≤ number) :
    ∀ c ∈ (Numeral.write number).toList, c.isDigit = true := by
  intro c member
  cases number with
  | ofNat n =>
    rw [Numeral.write, String.toList_ofList] at member
    exact toDigits_digit member
  | negSucc n => exact absurd unsigned (by simp)

theorem valueText_drawable (unsigned : Unsigned value) : ∀ c ∈ valueText value, Drawable c := by
  cases value with
  | none => simp [valueText]
  | some number =>
    rw [valueText, List.forall_mem_cons]
    exact ⟨by decide, fun c member => .inr (.inr (.inr (.inl
      (write_digits (unsigned number rfl) c member))))⟩

theorem front_drawable (margin : Margin row.indent) : ∀ c ∈ front row, Drawable c := by
  have branch : ∀ c ∈ (Row.branch row.isLast).toList, Drawable c := by
    cases row.isLast <;> simp [Row.branch, Drawable]
  rw [front, List.forall_mem_append]
  refine ⟨fun c member => ?_, branch⟩
  rcases margin c member with rfl | rfl <;> decide

theorem line_drawable (margin : Margin row.indent) (unsigned : Unsigned row.value) :
    ∀ c ∈ line row, Drawable c := by
  rw [line, List.forall_mem_append, List.forall_mem_append]
  refine ⟨front_drawable margin, fun c member => ?_, valueText_drawable unsigned⟩
  exact .inr (.inr (.inl (name_letters row.kind c member)))

/-- A source, whatever it is, is drawn with the characters of trees. -/
theorem tree_drawable (source : String) : ∃ text,
    output { mode := .tree } source = Utf8.encode text ∧ ∀ c ∈ text.toList, Drawable c := by
  have spelled : output { mode := .tree } source = Utf8.encode (String.ofList
      ((Node.drawing (.expr (Expr.ofSource source).value)).flatMap String.toList)) := by
    rw [output_tree, Utf8.decode?_eq_some_iff.mp (decode?_pieces _)]
  refine ⟨_, spelled, fun c member => ?_⟩
  rw [String.toList_ofList, Node.drawing, List.flatMap_assoc] at member
  obtain ⟨row, inside, within⟩ := List.mem_flatMap.mp member
  rw [pieces_line] at within
  rcases List.mem_append.mp within with within | last
  · have margin := node_margin (.expr (Expr.ofSource source).value) row inside
    have unsigned := rows_unsigned (ofSource_unsigned source) "" true row inside
    exact line_drawable margin unsigned c within
  · exact .inl (List.mem_singleton.mp last)

/-- The byte of a character that trees are not drawn with is not in a tree. -/
theorem tree_without {c : Char} (ascii : Ascii c) (absent : ¬ Drawable c) (source : String) :
    UInt8.ofNat c.toNat ∉ output { mode := .tree } source := by
  intro member
  obtain ⟨text, spelled, drawable⟩ := tree_drawable source
  rw [spelled] at member
  have code : (UInt8.ofNat c.toNat).toNat = c.toNat := by
    have bound : c.toNat < 128 := ascii
    rw [UInt8.toNat_ofNat']
    omega
  obtain ⟨d, inside, same⟩ := mem_encode_low member (by rw [code]; exact ascii)
  obtain rfl : d = c := Char.toNat_inj.mp (same.trans code)
  exact absent (drawable d inside)

end Summand.TreeAlphabet
