/-!
# Elements with rules of their own

Some elements never have content, some hold raw text, and some end without an end tag.

- `isVoid`: elements without content and without an end tag.
- `isRawText`: elements whose content is text up to their own end tag.
- `impliesEnd open opening`: whether the start of `opening` ends an open `open`.
- `mayStayOpen`: elements that the end of the input may close.

Models `is_void`, `is_raw_text`, `implicitly_closed_by` and `has_optional_end_tag`.
-/

namespace RoleGate

namespace Vocabulary

/-- An element that never has content. -/
def isVoid (name : String) : Bool :=
  ["area", "base", "br", "col", "embed", "hr", "img", "input", "link", "meta", "source",
    "track", "wbr"].contains name

/-- An element whose content is raw text. -/
def isRawText (name : String) : Bool :=
  ["script", "style"].contains name

/-- An element whose start ends an open paragraph. -/
def endsParagraph (name : String) : Bool :=
  ["address", "article", "aside", "blockquote", "dd", "div", "dl", "dt", "fieldset", "figure",
    "footer", "form", "h1", "h2", "h3", "h4", "h5", "h6", "header", "hr", "li", "main", "nav",
    "ol", "p", "pre", "section", "table", "ul"].contains name

/-- The elements whose start ends an open element of the given name. -/
def impliesEnd (current opening : String) : Bool :=
  match current with
  | "p" => endsParagraph opening
  | "li" => opening == "li"
  | "dt" | "dd" => ["dt", "dd"].contains opening
  | "option" => ["option", "optgroup"].contains opening
  | "optgroup" => opening == "optgroup"
  | "td" | "th" => ["td", "th", "tr", "tbody", "thead", "tfoot"].contains opening
  | "tr" => ["tr", "tbody", "thead", "tfoot"].contains opening
  | "thead" | "tbody" => ["tbody", "tfoot"].contains opening
  | _ => false

/-- An element that may still be open when the input ends. -/
def mayStayOpen (name : String) : Bool :=
  ["p", "li", "dt", "dd", "option", "optgroup", "td", "th", "tr", "thead", "tbody",
    "tfoot"].contains name

end Vocabulary

end RoleGate
