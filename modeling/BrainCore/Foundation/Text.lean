import BrainCore.Foundation.Digits

/-!
# Text

The string operations of the source's language on lists of characters: white
space as `trim` and `\s` see it, splitting at a separator, and reading the
integer a text starts with.
-/

namespace BrainCore.Foundation

/-- The characters `String.prototype.trim` and `\s` treat as white space. -/
def isJsSpace (c : Char) : Bool :=
  c.toNat ∈ [9, 10, 11, 12, 13, 32, 160, 5760, 8232, 8233, 8239, 8287, 12288, 65279] ||
    (8192 ≤ c.toNat && c.toNat ≤ 8202)

/-- `trim()`. -/
def trim (s : List Char) : List Char :=
  ((s.dropWhile isJsSpace).reverse.dropWhile isJsSpace).reverse

/-- `split(sep)` for a separator that is not empty; `skip` characters of a separator remain. -/
def splitAux (sep : List Char) : Nat → List Char → List Char → List (List Char)
  | _, piece, [] => [piece.reverse]
  | skip + 1, piece, _ :: rest => splitAux sep skip piece rest
  | 0, piece, c :: rest =>
      if sep.isPrefixOf (c :: rest) then piece.reverse :: splitAux sep (sep.length - 1) [] rest
      else splitAux sep 0 (c :: piece) rest

def splitOn (sep s : List Char) : List (List Char) := splitAux sep 0 [] s

/-- `split(/\s+/)`: runs of white space separate, and an empty text is one empty piece. -/
def splitWhite : List Char → List Char → List (List Char)
  | piece, [] => [piece.reverse]
  | piece, c :: rest =>
      if isJsSpace c then
        match rest with
        | d :: _ => if isJsSpace d then splitWhite piece rest else piece.reverse :: splitWhite [] rest
        | [] => [piece.reverse, []]
      else splitWhite (c :: piece) rest

/-- `endsWith(suffix)`. -/
def endsWith (s suffix : List Char) : Bool := suffix.isSuffixOf s

/-- `includes(part)`. -/
def includes (s part : List Char) : Bool := s.tails.any fun tail => part.isPrefixOf tail

/-- `Number.parseInt(token, 10)`; `none` is `NaN`. -/
def parseInt10 (token : List Char) : Option Int :=
  let body := token.dropWhile isJsSpace
  let negative := body.head? = some '-'
  let unsigned := if negative ∨ body.head? = some '+' then body.tail else body
  let digits := unsigned.takeWhile Char.isDigit
  if digits = [] then none
  else some (if negative then -(natOf digits : Int) else natOf digits)

/-- `[0-9a-fA-F]`. -/
def isHexDigit (c : Char) : Bool :=
  c.isDigit || ('a' ≤ c && c ≤ 'f') || ('A' ≤ c && c ≤ 'F')

/-- The value of a hexadecimal, octal or binary digit. -/
def digitValue (c : Char) : Nat :=
  if c.isDigit then c.toNat - 48
  else if 'a' ≤ c ∧ c ≤ 'f' then c.toNat - 87
  else if 'A' ≤ c ∧ c ≤ 'F' then c.toNat - 55
  else 16

def radixNat? (radix : Nat) (s : List Char) : Option Nat :=
  if s ≠ [] ∧ s.all (fun c => digitValue c < radix) then
    some (s.foldl (fun n c => n * radix + digitValue c) 0)
  else none

def decimalNat? (s : List Char) : Option Nat :=
  if s ≠ [] ∧ s.all Char.isDigit then some (natOf s) else none

/-- `BigInt(text)`; `none` is its `SyntaxError`. -/
def bigInt? (s : List Char) : Option Int :=
  match trim s with
  | [] => some 0
  | '-' :: digits => (decimalNat? digits).map fun n => -(n : Int)
  | '+' :: digits => (decimalNat? digits).map fun n => (n : Int)
  | '0' :: c :: digits =>
      if c = 'x' ∨ c = 'X' then (radixNat? 16 digits).map fun n => (n : Int)
      else if c = 'o' ∨ c = 'O' then (radixNat? 8 digits).map fun n => (n : Int)
      else if c = 'b' ∨ c = 'B' then (radixNat? 2 digits).map fun n => (n : Int)
      else (decimalNat? ('0' :: c :: digits)).map fun n => (n : Int)
  | digits => (decimalNat? digits).map fun n => (n : Int)

theorem digit_not_space {c : Char} (digit : c.isDigit = true) : isJsSpace c = false := by
  obtain ⟨hlow, hhigh⟩ := digit_range digit
  simp [isJsSpace]
  omega

theorem trim_eq_self {s : List Char} (first : s.head?.all (fun c => !isJsSpace c) = true)
    (last : s.getLast?.all (fun c => !isJsSpace c) = true) : trim s = s := by
  have hfirst : s.dropWhile isJsSpace = s := by
    cases s with
    | nil => rfl
    | cons c rest => exact List.dropWhile_cons_of_neg (by simpa using first)
  have hlast : s.reverse.dropWhile isJsSpace = s.reverse := by
    rw [← List.head?_reverse] at last
    cases hrev : s.reverse with
    | nil => rfl
    | cons c rest =>
        rw [hrev] at last
        exact List.dropWhile_cons_of_neg (by simpa using last)
  rw [trim, hfirst, hlast, List.reverse_reverse]

/-- A text without white space is not shortened. -/
theorem trim_of_not_space {s : List Char} (clean : ∀ c ∈ s, isJsSpace c = false) : trim s = s := by
  refine trim_eq_self ?_ ?_
  · cases h : s.head? with
    | none => rfl
    | some c => simp [clean c (List.mem_of_mem_head? h)]
  · cases h : s.getLast? with
    | none => rfl
    | some c => simp [clean c (List.mem_of_getLast? h)]

theorem decimalNat?_digits {s : List Char} (digits : IsDigits s) (nonempty : s ≠ []) :
    decimalNat? s = some (natOf s) := by
  rw [decimalNat?, if_pos ⟨nonempty, List.all_eq_true.mpr digits⟩]

theorem digit_ne_of {c d : Char} (digit : c.isDigit = true) (other : d.isDigit = false) : c ≠ d := by
  rintro rfl
  rw [digit] at other
  cases other

/-- `BigInt` of a digit string is the number it denotes. -/
theorem bigInt?_digits {s : List Char} (digits : IsDigits s) (nonempty : s ≠ []) :
    bigInt? s = some (natOf s : Int) := by
  have clean := trim_of_not_space fun c hc => digit_not_space (digits c hc)
  unfold bigInt?
  rw [clean]
  split
  · exact absurd rfl nonempty
  · exact absurd rfl (digit_ne_of (digits _ List.mem_cons_self) (by decide))
  · exact absurd rfl (digit_ne_of (digits _ List.mem_cons_self) (by decide))
  · rename_i c rest
    have hc : c.isDigit = true := digits c (by simp)
    have notRadix : ∀ d ∈ ['x', 'X', 'o', 'O', 'b', 'B'], c ≠ d := fun d hd => by
      apply digit_ne_of hc
      simp only [List.mem_cons, List.not_mem_nil, or_false] at hd
      rcases hd with rfl | rfl | rfl | rfl | rfl | rfl <;> rfl
    simp only [List.mem_cons, List.not_mem_nil, or_false, forall_eq_or_imp, forall_eq, ne_eq]
      at notRadix
    simp [notRadix, decimalNat?_digits digits nonempty]
  · rw [decimalNat?_digits digits nonempty]
    rfl

/-- `BigInt` of a minus sign and digits. -/
theorem bigInt?_neg_digits {s : List Char} (digits : IsDigits s) (nonempty : s ≠ []) :
    bigInt? ('-' :: s) = some (-(natOf s : Int)) := by
  have clean : trim ('-' :: s) = '-' :: s := trim_of_not_space fun c hc => by
    rcases List.mem_cons.mp hc with rfl | hc
    · decide
    · exact digit_not_space (digits c hc)
  rw [bigInt?, clean]
  simp [decimalNat?_digits digits nonempty]

theorem parseInt10_digits {token : List Char} (digits : IsDigits token) (nonempty : token ≠ []) :
    parseInt10 token = some (natOf token : Int) := by
  obtain ⟨c, rest, rfl⟩ := List.exists_cons_of_ne_nil nonempty
  have hc := digit_range (isDigits_cons.mp digits).1
  have notSpace : isJsSpace c = false := by
    simp [isJsSpace]
    omega
  have notSign : c ≠ '-' ∧ c ≠ '+' := by
    constructor <;> rintro rfl <;> revert hc <;> decide
  have all : (c :: rest).takeWhile Char.isDigit = c :: rest :=
    List.takeWhile_eq_self_iff.mpr digits
  unfold parseInt10
  rw [List.dropWhile_cons_of_neg (by simp [notSpace])]
  simp only [List.head?_cons, Option.some.injEq, notSign.1, notSign.2, or_self, if_false, all]
  simp

/-!
## Regular expressions with backtracking

The regular expressions of the source's language as far as they repeat single
characters only.  A match is looked for in the order of the language: the first
alternative first, and repetitions as long as they can be.
-/

/-- A regular expression; repetitions are of one class of characters. -/
inductive Regex where
  | empty
  | one (p : Char → Bool)
  | seq (first second : Regex)
  | alt (first second : Regex)
  | star (p : Char → Bool)
  /-- `\b`. -/
  | boundary

namespace Regex

/-- `\w`. -/
def isWord (c : Char) : Bool :=
  c.isDigit || ('a' ≤ c && c ≤ 'z') || ('A' ≤ c && c ≤ 'Z') || c == '_'

/-- A place in a text: the character before it, and what follows. -/
structure Place where
  before : Option Char := none
  after : List Char

/-- The places after each number of characters of the class, the longest run first. -/
def starPlaces (p : Char → Bool) : Option Char → List Char → List Place
  | before, [] => [⟨before, []⟩]
  | before, c :: rest =>
      if p c then starPlaces p (some c) rest ++ [⟨before, c :: rest⟩] else [⟨before, c :: rest⟩]

/-- The ends of the matches at a place, in the order in which they are tried. -/
def ends : Regex → Place → List Place
  | .empty, place => [place]
  | .one p, place =>
      match place.after with
      | [] => []
      | c :: rest => if p c then [⟨some c, rest⟩] else []
  | .seq first second, place => (first.ends place).flatMap second.ends
  | .alt first second, place => first.ends place ++ second.ends place
  | .star p, place => starPlaces p place.before place.after
  | .boundary, place =>
      if place.before.any isWord ≠ place.after.head?.any isWord then [place] else []

/-! ## Abbreviations -/

/-- `r?`. -/
def opt (r : Regex) : Regex := .alt r .empty

/-- `[…]+`. -/
def plus (p : Char → Bool) : Regex := .seq (.one p) (.star p)

def seqs : List Regex → Regex
  | [] => .empty
  | r :: rs => .seq r (seqs rs)

/-- `a|b|…`, which has at least one alternative. -/
def alts (first : Regex) : List Regex → Regex
  | [] => first
  | r :: rs => .alt first (alts r rs)

/-- The text itself. -/
def text (s : String) : Regex := seqs (s.toList.map fun c => .one (· == c))

/-- One of the characters of a text. -/
def oneOf (s : String) (c : Char) : Bool := s.toList.contains c

/-! ## Replacing -/

/-- `replace(/r/g, replacement)` from a place on, for an expression without empty matches; `skip`
characters of a match remain. -/
def replaceFrom (r : Regex) (replacement : List Char) : Nat → Option Char → List Char → List Char
  | _, _, [] => []
  | skip + 1, _, c :: rest => replaceFrom r replacement skip (some c) rest
  | 0, before, c :: rest =>
      match (r.ends ⟨before, c :: rest⟩).head? with
      | some found =>
          replacement ++ replaceFrom r replacement (rest.length - found.after.length) (some c) rest
      | none => c :: replaceFrom r replacement 0 (some c) rest

def replaceAll (r : Regex) (replacement s : List Char) : List Char :=
  replaceFrom r replacement 0 none s

end Regex

end BrainCore.Foundation
