/-
Reading a JSON text into its tree. Every function takes the characters that are left and returns
those behind what it read; a text that is not JSON gives nothing.
-/
import Demarcation.Json.Basic
import Demarcation.Text.Number

namespace Demarcation.Json

open Demarcation.Text

/-- The blanks that may stand between the parts of a text. -/
def isGap (c : Char) : Bool := c == ' ' || c == '\n' || c == '\t' || c == '\r'

def skipGap (s : List Char) : List Char := s.dropWhile isGap

/-! ## Quoted texts -/

/-- A part of a quoted text: a character, or half of a surrogate pair given by its number. -/
inductive Piece
  | char (c : Char)
  | half (n : Nat)

/-- The value of a hexadecimal digit in either case. -/
def hexDigit? (c : Char) : Option Nat :=
  match digit? c with
  | some d => some d
  | none =>
    if 'a' ≤ c ∧ c ≤ 'f' then some (c.toNat - 'a'.toNat + 10)
    else if 'A' ≤ c ∧ c ≤ 'F' then some (c.toNat - 'A'.toNat + 10)
    else none

/-- The piece of a numbered escape. -/
def Piece.ofHex? (a b c d : Char) : Option Piece := do
  let n := ((← hexDigit? a) * 16 + (← hexDigit? b)) * 256 + ((← hexDigit? c) * 16 + (← hexDigit? d))
  pure (if 0xd800 ≤ n ∧ n < 0xe000 then .half n else .char (Char.ofNat n))

/-- The character of a short escape. -/
def shortEscape? (c : Char) : Option Char :=
  if c = '"' ∨ c = '\\' ∨ c = '/' then some c
  else if c = 'b' then some '\x08'
  else if c = 'f' then some '\x0c'
  else if c = 'n' then some '\n'
  else if c = 'r' then some '\r'
  else if c = 't' then some '\t'
  else none

/-- The pieces up to the closing quote. -/
def pieces? : List Char → Option (List Piece × List Char)
  | [] => none
  | '"' :: s => some ([], s)
  | '\\' :: 'u' :: a :: b :: c :: d :: s => do
    let p ← Piece.ofHex? a b c d
    let (ps, s) ← pieces? s
    pure (p :: ps, s)
  | '\\' :: e :: s => do
    let c ← shortEscape? e
    let (ps, s) ← pieces? s
    pure (.char c :: ps, s)
  | c :: s => do
    if c = '\\' ∨ c.toNat < 0x20 then none
    let (ps, s) ← pieces? s
    pure (.char c :: ps, s)

/-- The text of the pieces: the two halves of a pair make one character, a half alone makes the
whole no text. -/
def spell : List Piece → Option (List Char)
  | [] => some []
  | .char c :: ps => (spell ps).map (c :: ·)
  | .half a :: .half b :: ps =>
    if a < 0xdc00 ∧ 0xdc00 ≤ b then
      (spell ps).map (Char.ofNat (0x10000 + (a - 0xd800) * 0x400 + (b - 0xdc00)) :: ·)
    else none
  | .half _ :: _ => none

/-- A literal, behind its opening quote. -/
def literal? (s : List Char) : Option (Literal × List Char) :=
  (pieces? s).map fun (ps, s) => ((spell ps).map String.ofList, s)

/-! ## Numbers -/

/-- One or more digits. -/
def digitRun? (s : List Char) : Option (List Char × List Char) :=
  let ds := s.takeWhile isDigit
  if ds.isEmpty then none else some (ds, s.dropWhile isDigit)

/-- The digits before the point: a zero alone, or digits that start with another one. -/
def whole? (s : List Char) : Option (List Char × List Char) := do
  let (ds, s) ← digitRun? s
  if ds.head? = some '0' ∧ ds.length ≠ 1 then none else some (ds, s)

def fraction? : List Char → Option (Option (List Char) × List Char)
  | '.' :: s => (digitRun? s).map fun (ds, s) => (some ds, s)
  | s => some (none, s)

def exponent? : List Char → Option (Option (Bool × List Char) × List Char)
  | [] => some (none, [])
  | c :: s =>
    if c = 'e' ∨ c = 'E' then
      let (negative, s) := match s with
        | '-' :: r => (true, r)
        | '+' :: r => (false, r)
        | _ => (false, s)
      (digitRun? s).map fun (ds, s) => (some (negative, ds), s)
    else some (none, c :: s)

def number? (s : List Char) : Option (Number × List Char) := do
  let (negative, s) := match s with
    | '-' :: r => (true, r)
    | _ => (false, s)
  let (whole, s) ← whole? s
  let (fraction, s) ← fraction? s
  let (exponent, s) ← exponent? s
  pure (⟨negative, whole, fraction, exponent⟩, s)

/-! ## Trees -/

mutual

/-- A tree. `fuel` bounds the calls below this one. -/
def value? : (fuel : Nat) → List Char → Option (Json × List Char)
  | 0, _ => none
  | fuel + 1, s =>
    match skipGap s with
    | 'n' :: 'u' :: 'l' :: 'l' :: s => some (.null, s)
    | 't' :: 'r' :: 'u' :: 'e' :: s => some (.bool true, s)
    | 'f' :: 'a' :: 'l' :: 's' :: 'e' :: s => some (.bool false, s)
    | '"' :: s => (literal? s).map fun (t, s) => (.text t, s)
    | '[' :: s =>
      match skipGap s with
      | ']' :: s => some (.array [], s)
      | _ => (items? fuel s).map fun (js, s) => (.array js, s)
    | '\x7b' :: s =>
      match skipGap s with
      | '\x7d' :: s => some (.object [], s)
      | _ => (members? fuel s).map fun (ms, s) => (.object ms, s)
    | s => (number? s).map fun (n, s) => (.number n, s)

/-- One or more items and the closing bracket. -/
def items? : (fuel : Nat) → List Char → Option (List Json × List Char)
  | 0, _ => none
  | fuel + 1, s => do
    let (j, s) ← value? fuel s
    match skipGap s with
    | ',' :: s =>
      let (js, s) ← items? fuel s
      pure (j :: js, s)
    | ']' :: s => pure ([j], s)
    | _ => none

/-- One or more members and the closing brace. -/
def members? : (fuel : Nat) → List Char → Option (List (Literal × Json) × List Char)
  | 0, _ => none
  | fuel + 1, s =>
    match skipGap s with
    | '"' :: s => do
      let (k, s) ← literal? s
      match skipGap s with
      | ':' :: s =>
        let (j, s) ← value? fuel s
        match skipGap s with
        | ',' :: s =>
          let (ms, s) ← members? fuel s
          pure ((k, j) :: ms, s)
        | '\x7d' :: s => pure ([(k, j)], s)
        | _ => none
      | _ => none
    | _ => none

end

/-- The tree of a whole text, with nothing but blanks behind it. Each level of a tree takes two
calls and at least one character, so the fuel never runs out. -/
def parse? (text : String) : Option Json := do
  let s := text.toList
  let (j, rest) ← value? (2 * s.length + 2) s
  if (skipGap rest).isEmpty then some j else none

end Demarcation.Json
