import LosslessSyntax.Text.Basic

/-! Message templates. A template holds numbered places in braces; filling it puts in the arguments one
after another, each at every occurrence of its place in the text as it then stands. -/

namespace LosslessSyntax

/-- Puts `value` at every occurrence of `hole` in the text, from left to right; occurrences do not
overlap. -/
def Text.replaceAll (t hole value : Text) : Text :=
  match t with
  | [] => []
  | c :: rest =>
    if hole.isPrefixOf t then value ++ replaceAll (rest.drop (hole.length - 1)) hole value
    else c :: replaceAll rest hole value
termination_by t.length
decreasing_by all_goals simp only [List.length_cons, List.length_drop]; omega

namespace Template

/-- The place of argument `i`: its number in braces. -/
def hole (i : Nat) : Text := ['\x7b'] ++ Nat.toDigits 10 i ++ ['\x7d']

/-- Puts in the arguments, of which the first has number `i`. -/
def fillFrom (i : Nat) (template : Text) : List Text → Text
  | [] => template
  | a :: args => fillFrom (i + 1) (template.replaceAll (hole i) a) args

/-- Puts in the arguments, numbered from zero. -/
def fill (template : Text) (args : List Text) : Text := fillFrom 0 template args

/-- Without arguments a template stands for itself. -/
@[simp] theorem fill_nil (template : Text) : fill template [] = template := rfl

end Template

end LosslessSyntax
