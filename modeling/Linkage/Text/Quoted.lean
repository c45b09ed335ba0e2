import Linkage.Text.Hidden

/-
  Quoted text, as it is written for a developer to read: the
  usual escapes, the quote itself escaped, and every hidden
  character written by its number in base sixteen.

  Key definitions include:
    * `Quoted.escape`
    * `Quoted.text`
    * `Quoted.character`
-/

------------------------------------------------------------
-- Escapes
------------------------------------------------------------

namespace Linkage

namespace Quoted

/- A character written by its number. -/
def byNumber (c : Char) : List Char :=
  '\x5c' :: 'u' :: '\x7b' :: Nat.toDigits 16 c.toNat ++ ['\x7d']

/- A character does not show. -/
def isHidden (c : Char) : Bool :=
  if c.toNat < 0x20 then true
  else if c.toNat < 0x7f then false
  else if c.toNat = 0x7f then true
  else Hidden.contains c.toNat

/- A character within a given quote. -/
def escape
    (quote c : Char) : List Char :=
  if c = '\x00' then ['\x5c', '0']
  else if c = '\t' then ['\x5c', 't']
  else if c = '\r' then ['\x5c', 'r']
  else if c = '\n' then ['\x5c', 'n']
  else if c = '\x5c' then ['\x5c', '\x5c']
  else if c = quote then ['\x5c', quote]
  else if isHidden c then byNumber c
  else [c]

/- A text in double quotes. -/
def text (s : String) : String :=
  String.ofList
    ('\x22' :: s.toList.flatMap (escape '\x22') ++ ['\x22'])

/- A character in single quotes. -/
def character (c : Char) : String :=
  String.ofList ('\x27' :: escape '\x27' c ++ ['\x27'])

end Quoted

end Linkage
