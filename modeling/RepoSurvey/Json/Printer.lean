import RepoSurvey.Record.Shown
import RepoSurvey.Value

/-!
# RepoSurvey.Json.Printer

Writing values as JSON: indented by two spaces with characters outside ASCII left alone, or on
one line in ASCII alone. Numbers that are not finite are written as null, and byte strings, moments
and records as their texts.
-/

namespace RepoSurvey.Json

def hexEscape (n : Nat) : List Char := '\\' :: 'u' :: Text.hexPadded 4 n

def stringChar (ascii : Bool) (c : Char) : List Char :=
  match c with
  | '"' => ['\\', '"']
  | '\\' => ['\\', '\\']
  | '\x08' => ['\\', 'b']
  | '\x0c' => ['\\', 'f']
  | '\n' => ['\\', 'n']
  | '\r' => ['\\', 'r']
  | '\t' => ['\\', 't']
  | c =>
    let n := c.toNat
    if n < 32 then hexEscape n
    else if !ascii || n < 127 then [c]
    else if n < 0x10000 then hexEscape n
    else hexEscape (0xD800 + (n - 0x10000) / 0x400) ++ hexEscape (0xDC00 + (n - 0x10000) % 0x400)

def stringText (ascii : Bool) (s : String) : String :=
  "\"" ++ String.ofList (s.toList.flatMap (stringChar ascii)) ++ "\""

/-- A number, null where it is not finite. -/
def realText (x : Binary64) : String :=
  match x with
  | .finite .. => Decimal.plain.write x
  | _ => "null"

def newline (depth : Nat) : String := "\n" ++ String.ofList (List.replicate (2 * depth) ' ')

mutual

/-- A value on several lines, where it stands at some depth. -/
def indentedAt (depth : Nat) : Value → String
  | .null => "null"
  | .bool b => if b then "true" else "false"
  | .int n | .long n => toString n
  | .real x => realText x
  | .text s => stringText false s
  | .bytes bs => stringText false (Text.quotedBytes bs)
  | .moment m => stringText false m.text
  | .list [] => "[]"
  | .list vs => "[" ++ indentedItems (depth + 1) vs ++ newline depth ++ "]"
  | .object [] => "\x7b\x7d"
  | .object fs => "\x7b" ++ indentedFields (depth + 1) fs ++ newline depth ++ "\x7d"
  | .record r => stringText false r.inner

def indentedItems (depth : Nat) : List Value → String
  | [] => ""
  | [v] => newline depth ++ indentedAt depth v
  | v :: vs => newline depth ++ indentedAt depth v ++ "," ++ indentedItems depth vs

def indentedFields (depth : Nat) : List (String × Value) → String
  | [] => ""
  | [(k, v)] => newline depth ++ stringText false k ++ ": " ++ indentedAt depth v
  | (k, v) :: fs =>
    newline depth ++ stringText false k ++ ": " ++ indentedAt depth v ++ "," ++
      indentedFields depth fs

end

def indented (v : Value) : String := indentedAt 0 v

mutual

/-- A value on one line, in ASCII. -/
def compact : Value → String
  | .null => "null"
  | .bool b => if b then "true" else "false"
  | .int n | .long n => toString n
  | .real x => realText x
  | .text s => stringText true s
  | .bytes bs => stringText true (Text.quotedBytes bs)
  | .moment m => stringText true m.text
  | .list vs => "[" ++ compactItems vs ++ "]"
  | .object fs => "\x7b" ++ compactFields fs ++ "\x7d"
  | .record r => stringText true r.inner

def compactItems : List Value → String
  | [] => ""
  | [v] => compact v
  | v :: vs => compact v ++ ", " ++ compactItems vs

def compactFields : List (String × Value) → String
  | [] => ""
  | [(k, v)] => stringText true k ++ ": " ++ compact v
  | (k, v) :: fs => stringText true k ++ ": " ++ compact v ++ ", " ++ compactFields fs

end

end RepoSurvey.Json
