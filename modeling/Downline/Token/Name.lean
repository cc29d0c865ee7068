import Downline.Text.Lower
import Downline.Text.Pieces

/-!
# Token names in style sheets

The name of a token becomes part of the name of a style sheet variable. It is put into lower case,
and whatever is then no ASCII letter or digit only separates the words of the name, which are joined
by single dashes.

`sanitize` does this in two steps, first a dash for every run of separators, then no dashes at the
ends. `words` lists the words themselves.
-/

namespace Downline.Token

/-- True of the characters that stay: small ASCII letters and digits. -/
def isPlain (c : Char) : Bool := ('a' ≤ c && c ≤ 'z') || ('0' ≤ c && c ≤ '9')

/-- A text with one dash in place of every run of other characters. The flag tells whether the
character in front belongs to such a run. -/
def dashed (inRun : Bool) : List Char → List Char
  | [] => []
  | c :: cs =>
    if isPlain c then c :: dashed false cs
    else if inRun then dashed true cs
    else '-' :: dashed true cs

/-- A text without dashes at its ends. -/
def trimDashes (cs : List Char) : List Char :=
  ((cs.dropWhile (· == '-')).reverse.dropWhile (· == '-')).reverse

/-- The name of a token as it stands in the name of a variable. -/
def sanitize (name : String) : String :=
  String.ofList (trimDashes (dashed false (Text.lower name.toList)))

/-- The longest runs of plain characters in a text. -/
def words : List Char → List (List Char)
  | [] => []
  | c :: cs =>
    if isPlain c then
      match cs with
      | [] => [[c]]
      | d :: _ =>
        if isPlain d then
          match words cs with
          | [] => [[c]]
          | w :: ws => (c :: w) :: ws
        else [c] :: words cs
    else words cs

end Downline.Token
