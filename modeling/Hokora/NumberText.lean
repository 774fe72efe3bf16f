import Mathlib.Algebra.Order.Ring.Rat

/-!
# Decimal text of numbers

A reader of decimal literals, in the form a column of integers takes them and in the wider form of
a float literal, and the text of a number with fifteen significant digits. Values are exact
rationals: the rounding to a double and its overflow are left out. Only the digits and blanks of
ASCII count.
-/
namespace Hokora.NumberText

def isSpace (c : Char) : Bool := c = ' ' || (9 ≤ c.toNat && c.toNat ≤ 13)

def strip (cs : List Char) : List Char :=
  (((cs.dropWhile isSpace).reverse).dropWhile isSpace).reverse

/-- Leading digits and what follows them. -/
def takeDigits : List Char → List ℕ × List Char
  | [] => ([], [])
  | c :: cs =>
    if c.isDigit then ((c.toNat - 48) :: (takeDigits cs).1, (takeDigits cs).2) else ([], c :: cs)

def digitsValue (ds : List ℕ) : ℕ := ds.foldl (fun a d => 10 * a + d) 0

def takeSign : List Char → ℤ × List Char
  | '-' :: cs => (-1, cs)
  | '+' :: cs => (1, cs)
  | cs => (1, cs)

def shift (q : ℚ) (k : ℤ) : ℚ :=
  if 0 ≤ k then q * (10 ^ k.toNat : ℕ) else q / (10 ^ (-k).toNat : ℕ)

/-- The exponent that ends a literal; no text is exponent 0. -/
def exponent : List Char → Option ℤ
  | [] => some 0
  | c :: cs =>
    let signed := takeSign cs
    let ds := takeDigits signed.2
    if (c = 'e' || c = 'E') && !ds.1.isEmpty && ds.2.isEmpty then
      some (signed.1 * digitsValue ds.1)
    else none

def unsigned (cs : List Char) : Option ℚ :=
  let whole := takeDigits cs
  let part := match whole.2 with
    | '.' :: rest => takeDigits rest
    | rest => ([], rest)
  let digits := whole.1 ++ part.1
  if digits.isEmpty then none
  else (exponent part.2).map fun e => shift (digitsValue digits) (e - part.1.length)

/-- The value of text that is a decimal literal between blanks. -/
def decimal (cs : List Char) : Option ℚ :=
  let signed := takeSign (strip cs)
  (unsigned signed.2).map fun q => signed.1 * q

/-- The text without underscores, each of which must stand between digits. -/
def dropUnderscores (previous : Char) : List Char → Option (List Char)
  | [] => some []
  | '_' :: c :: cs =>
    if previous.isDigit && c.isDigit then (dropUnderscores c cs).map (c :: ·) else none
  | c :: cs => if c = '_' then none else (dropUnderscores c cs).map (c :: ·)

/-- The decimal exponent of a positive number. -/
def magnitude (q : ℚ) : ℤ :=
  let e : ℤ := (Nat.toDigits 10 q.num.natAbs).length - (Nat.toDigits 10 q.den).length
  if 1 ≤ shift q (-e) then e else e - 1

/-- Fifteen significant digits of a positive number, rounded half up, and its exponent. -/
def significand (q : ℚ) : ℕ × ℤ :=
  let e := magnitude q
  let n := (shift q (14 - e) + 1 / 2).floor.toNat
  if n = 10 ^ 15 then (10 ^ 14, e + 1) else (n, e)

def dotted (whole part : List Char) : List Char :=
  whole ++ '.' :: (if part.isEmpty then ['0'] else part)

def positiveText (q : ℚ) : List Char :=
  let e := (significand q).2
  let digits := ((Nat.toDigits 10 (significand q).1).reverse.dropWhile (· = '0')).reverse
  if e < -4 || 14 < e then
    let size := Nat.toDigits 10 e.natAbs
    dotted (digits.take 1) (digits.drop 1) ++
      ['e', if e < 0 then '-' else '+'] ++ List.replicate (2 - size.length) '0' ++ size
  else if e < 0 then dotted ['0'] (List.replicate (e.natAbs - 1) '0' ++ digits)
  else
    dotted ((digits ++ List.replicate 15 '0').take (e.toNat + 1)) (digits.drop (e.toNat + 1))

def floatText (q : ℚ) : String :=
  if q = 0 then "0.0"
  else if q < 0 then String.ofList ('-' :: positiveText (-q))
  else String.ofList (positiveText q)

end Hokora.NumberText
