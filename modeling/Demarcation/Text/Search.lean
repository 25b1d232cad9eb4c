/-
Looking inside texts: beginnings, ends, occurrences, and cutting a text at a character.
-/

namespace Demarcation.Text

/-- The rest of a text after `head`, if it begins with `head`. -/
def after? : List Char → List Char → Option (List Char)
  | [], s => some s
  | _ :: _, [] => none
  | h :: head, c :: s => if h = c then after? head s else none

/-- The text before `tail`, if it ends with `tail`. -/
def before? (tail s : List Char) : Option (List Char) :=
  (after? tail.reverse s.reverse).map List.reverse

/-- Whether `t` occurs in a text as a run of neighbouring characters. -/
def occursIn (t : List Char) : List Char → Bool
  | [] => t.isEmpty
  | c :: s => (after? t (c :: s)).isSome || occursIn t s

/-- The pieces between the occurrences of a character: one more than there are occurrences. -/
def splitAt (c : Char) : List Char → List (List Char)
  | [] => [[]]
  | x :: s =>
    match splitAt c s with
    | [] => [[x]]
    | piece :: pieces => if x = c then [] :: piece :: pieces else (x :: piece) :: pieces

end Demarcation.Text
