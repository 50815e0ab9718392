import AgenticSDLC.Foundations.JsonText

/-!
# JSON text in ASCII

`json.dumps(obj, sort_keys=True, separators=(",", ":"))` as it is by default, with
`ensure_ascii`: a character outside of printable ASCII is written by its UTF-16 code
units.  The text is a list of characters, and the parts of a list or an object come
one after another, so that a reader can follow it from the left.
-/

namespace Json

def utf16 (c : Char) : List ℕ :=
  if c.toNat < 0x10000 then [c.toNat]
  else [0xD800 + (c.toNat - 0x10000) / 0x400, 0xDC00 + (c.toNat - 0x10000) % 0x400]

def hexUnit (n : ℕ) : List Char :=
  [hexDigit (n / 4096), hexDigit (n / 256 % 16), hexDigit (n / 16 % 16), hexDigit (n % 16)]

def escapeUnit (n : ℕ) : List Char :=
  match n with
  | 34 => ['\\', '"']
  | 92 => ['\\', '\\']
  | 8 => ['\\', 'b']
  | 9 => ['\\', 't']
  | 10 => ['\\', 'n']
  | 12 => ['\\', 'f']
  | 13 => ['\\', 'r']
  | n => if 32 ≤ n ∧ n ≤ 126 then [Char.ofNat n] else '\\' :: 'u' :: hexUnit n

def asciiQuote (s : String) : List Char :=
  '"' :: (s.toList.flatMap utf16).flatMap escapeUnit ++ ['"']

section Text

variable (repr : Json → String)

mutual

def asciiText : Json → List Char
  | .null => ['n', 'u', 'l', 'l']
  | .bool true => ['t', 'r', 'u', 'e']
  | .bool false => ['f', 'a', 'l', 's', 'e']
  | .int n => (toString n).toList
  | .float x => (repr (.float x)).toList
  | .str s => asciiQuote s
  | .arr [] => ['[', ']']
  | .arr (item :: items) => '[' :: asciiText item ++ asciiItems items
  | .obj [] => ['\x7b', '\x7d']
  | .obj ((key, value) :: members) =>
      '\x7b' :: asciiQuote key ++ ':' :: asciiText value ++ asciiMembers members

/-- The items after the first one, and the end of their list. -/
def asciiItems : List Json → List Char
  | [] => [']']
  | item :: items => ',' :: asciiText item ++ asciiItems items

def asciiMembers : List (String × Json) → List Char
  | [] => ['\x7d']
  | (key, value) :: members =>
      ',' :: asciiQuote key ++ ':' :: asciiText value ++ asciiMembers members

end

def asciiDumps (value : Json) : String := String.ofList (asciiText repr value.sortKeys)

end Text

end Json
