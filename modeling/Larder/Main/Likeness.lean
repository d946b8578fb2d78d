/-!
# Likeness of texts

How much two texts look like each other tells what a misspelt name was meant to be.  A character
of one text finds a partner in the other if the same character stands near by there and is not yet
a partner.  The likeness is the mean of three fractions: how much of either text has partners, and
how many partners are left when each exchange of two is taken off.  It is computed in floating
point in this order, so two texts that are equally like a third may differ in the last digit.
-/

namespace Larder.Shell.Likeness

/-- The place of the partner of a character: the first place in reach that holds the same character
and is not taken. -/
def partner? (reach : Nat) (text : List Char) (taken : List Nat) (character : Char)
    (place : Nat) : Option Nat :=
  (List.range text.length).find? fun other =>
    place ≤ other + reach && other ≤ place + reach && text[other]? == some character &&
      !taken.contains other

/-- The characters of a text that have partners in another one, in order, with the places of the
partners.  Partners are less than half the longer text apart. -/
def partners (text other : List Char) : List (Char × Nat) :=
  let reach := max text.length other.length / 2 - 1
  text.zipIdx.foldl (fun found (character, place) =>
    match partner? reach other (found.map (·.2)) character place with
    | some partner => found ++ [(character, partner)]
    | none => found) []

/-- How many exchanges of two put the partners into the order of the characters. -/
def exchanges (found : List (Char × Nat)) (other : List Char) : Nat :=
  let ordered := other.zipIdx.filter fun (_, place) => (found.map (·.2)).contains place
  (found.zip ordered).countP (fun (own, partner) => own.1 != partner.1) / 2

/-- How much a text looks like another one, between nothing and one. -/
def ofTexts (text other : String) : Float :=
  let found := partners text.toList other.toList
  let common := found.length.toFloat
  let kept := (found.length - exchanges found other.toList).toFloat
  if text = "" ∧ other = "" then 1
  else if found = [] then 0
  else (common / text.length.toFloat + common / other.length.toFloat + kept / common) / 3

/-- Of the names that look more than enough like a text, the one that looks most like it, and the
last one of equals. -/
def closest? (enough : Float) (text : String) (names : List String) : Option String :=
  let better (best : Option (String × Float)) (name : String) :=
    let likeness := ofTexts text name
    if enough < likeness ∧ best.all (fun known => decide (known.2 ≤ likeness)) then
      some (name, likeness)
    else best
  (names.foldl better none).map (·.1)

end Larder.Shell.Likeness
