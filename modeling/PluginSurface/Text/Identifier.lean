import PluginSurface.Text.Letter

/-!
# Names

A name begins with a letter, an underscore or a dollar sign and goes on with letters, digits,
underscores and dollar signs.
-/

namespace PluginSurface.Text

def isNameStart (c : Char) : Bool := c == '_' || c == '$' || isLetter c

def isNamePart (c : Char) : Bool := c == '_' || c == '$' || isLetterOrDigit c

theorem isNamePart_of_isNameStart {c : Char} (h : isNameStart c = true) : isNamePart c = true := by
  simp only [isNameStart, isNamePart, isLetterOrDigit, Bool.or_eq_true] at h ⊢
  exact h.imp_right Or.inl

def isName (s : String) : Bool :=
  match s.toList with
  | [] => false
  | c :: rest => isNameStart c && rest.all isNamePart

end PluginSurface.Text
