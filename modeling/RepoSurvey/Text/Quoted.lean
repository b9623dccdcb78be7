import RepoSurvey.Text.Printable

/-!
# RepoSurvey.Text.Quoted

Texts and byte strings in quotes. Apostrophes stand at both ends unless the text holds one and
no double quote; a backslash goes before the quote in use and before itself; line feed, return
and tab have letters, and all else that does not print is written in hexadecimal.
-/

namespace RepoSurvey.Text

/-- `n` in lower-case hexadecimal, filled with zeros to `width`. -/
def hexPadded (width n : Nat) : List Char :=
  let ds := Nat.toDigits 16 n
  List.replicate (width - ds.length) '0' ++ ds

/-- The quote that surrounds a text. -/
def quoteFor (s : List Char) : Char :=
  if s.contains '\'' && !s.contains '"' then '"' else '\''

/-- One character of a quoted text. -/
def quotedChar (quote c : Char) : List Char :=
  if c == quote || c == '\\' then ['\\', c]
  else if c == '\n' then ['\\', 'n']
  else if c == '\r' then ['\\', 'r']
  else if c == '\t' then ['\\', 't']
  else if isPrintable c then [c]
  else if c.toNat < 0x100 then '\\' :: 'x' :: hexPadded 2 c.toNat
  else if c.toNat < 0x10000 then '\\' :: 'u' :: hexPadded 4 c.toNat
  else '\\' :: 'U' :: hexPadded 8 c.toNat

def quoted (s : String) : String :=
  let q := quoteFor s.toList
  String.ofList (q :: s.toList.flatMap (quotedChar q) ++ [q])

/-- A byte string in quotes, marked by a leading `b`; bytes outside ASCII are in hexadecimal. -/
def quotedBytes (bs : List UInt8) : String :=
  let cs := bs.map fun b => Char.ofNat b.toNat
  let q := quoteFor cs
  let one (c : Char) : List Char :=
    if c.toNat < 128 then quotedChar q c else '\\' :: 'x' :: hexPadded 2 c.toNat
  String.ofList ('b' :: q :: cs.flatMap one ++ [q])

end RepoSurvey.Text
