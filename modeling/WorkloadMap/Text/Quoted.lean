import WorkloadMap.Text.Blank
import WorkloadMap.Text.Numeral

/-!
Texts as they are quoted in error messages: between double quotes, with what would not show, or
would end the quotation, escaped.
-/
namespace WorkloadMap.Text

def isControl (c : Char) : Bool :=
  let n := c.toNat
  n < 0x20 || (0x7F ≤ n && n ≤ 0x9F)

/-- A character escaped by its number, for what has no shape of its own. -/
def escapeByNumber (c : Char) : String :=
  "\\u\x7b" ++ digits 16 c.toNat ++ "\x7d"

def quoteChar (c : Char) : String :=
  match c with
  | '"' => "\\\""
  | '\\' => "\\\\"
  | '\n' => "\\n"
  | '\r' => "\\r"
  | '\t' => "\\t"
  | '\x00' => "\\0"
  | ' ' => " "
  | c => if isControl c || isBlank c then escapeByNumber c else c.toString

def quote (s : String) : String :=
  "\"" ++ String.join (s.toList.map quoteChar) ++ "\""

end WorkloadMap.Text
