/-!
# Escaping for HTML

`escapeHtml` exchanges the six characters with a meaning in HTML for entities, one at a time.
-/

namespace Phrasebook.Text

/-- The entity of a character with a meaning in HTML, or the character itself. -/
def escapeChar (c : Char) : List Char :=
  match c with
  | '"' => "&quot;".toList
  | '&' => "&amp;".toList
  | '\'' => "&#x27;".toList
  | '/' => "&#x2f;".toList
  | '<' => "&lt;".toList
  | '>' => "&gt;".toList
  | c => [c]

/-- The text with every character escaped for HTML. -/
def escapeHtml (s : String) : String :=
  String.ofList (s.toList.flatMap escapeChar)

theorem escapeHtml_append (s t : String) : escapeHtml (s ++ t) = escapeHtml s ++ escapeHtml t := by
  simp [escapeHtml, String.ofList_append]

end Phrasebook.Text
