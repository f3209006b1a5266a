import HerdBook.Text.Blank
import HerdBook.Text.Quoted

/-!
# Symbols

A symbol is a logical variable of one rule. It belongs to the rule that names it, so two rules
that use the same word for a variable never share a binding; a mark tells apart two variables of
one rule that are shown under the same name. A change of frames may also bind a plain word, which
belongs to no rule and is never read.
-/

namespace HerdBook

/-- A logical variable: the name it is shown under, the rule it belongs to, and a mark that tells
it from the rule's other variables of that name. A plain word has no rule. -/
structure Symbol where
  name : String
  rule : Option String
  mark : String
  deriving DecidableEq, Inhabited

namespace Symbol

/-- How a variable of that name is written in messages. -/
def written (name : String) : String := "$" ++ name

/-- The text of the symbol; a plain word is in quotes. -/
def text (s : Symbol) : String := if s.rule.isSome then written s.name else quoted s.name

/-- The symbol of a rule without a mark. -/
def plain (rule name : String) : Symbol := ⟨name, some rule, ""⟩

/-- A plain word. -/
def word (name : String) : Symbol := ⟨name, none, ""⟩

/-- The symbol of a rule with a label, which is the name or the name and the mark; a mark begins
with `#`. -/
def ofLabel (rule label : String) : Symbol :=
  let cs := label.toList
  ⟨String.ofList (cs.takeWhile (· ≠ '#')), some rule, String.ofList (cs.dropWhile (· ≠ '#'))⟩

/-- The label of the symbol within its rule. -/
def label (s : Symbol) : String := s.name ++ s.mark

/-- The names in a declaration, separated by commas and white space. -/
def declaredNames (declaration : String) : List String :=
  words (String.ofList (declaration.toList.map fun c => if c = ',' then ' ' else c))

/-- A new symbol for each name of a declaration, also for one that is repeated. -/
def declare (rule declaration : String) : List Symbol :=
  (declaredNames declaration).mapIdx fun i name => ⟨name, some rule, toString i⟩

end Symbol

end HerdBook
