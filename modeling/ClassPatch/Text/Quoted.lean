import ClassPatch.Text.Printable
import ClassPatch.Text.JavaString

namespace ClassPatch

namespace Quoted

def hexDigits (n : Nat) : List Char :=
  (Nat.toDigits 16 n)

def codePoint (code : Nat) : List Char :=
  ['\\', 'u', '\x7b'] ++ hexDigits code ++ ['\x7d']

def escapeChar (quotes : List Char) (c : Char) : List Char :=
  if quotes.contains c then ['\\', c]
  else if c = '\\' then ['\\', '\\']
  else if c = '\x00' then ['\\', '0']
  else if c = '\t' then ['\\', 't']
  else if c = '\n' then ['\\', 'n']
  else if c = '\r' then ['\\', 'r']
  else if Printable.hidden c.toNat then codePoint c.toNat
  else [c]

def char (c : Char) : String :=
  String.ofList ('\'' :: escapeChar ['\''] c ++ ['\''])

def string (s : String) : String :=
  String.ofList ('"' :: s.toList.flatMap (escapeChar ['"']) ++ ['"'])

/-- A Java string between double quotes. -/
def javaString (s : JavaString) : String :=
  match s.toString? with
  | some text => string text
  | none =>
    let each : Except UInt16 Char → List Char
      | .ok c => escapeChar ['\'', '"'] c
      | .error unit => codePoint unit.toNat
    String.ofList ('"' :: (Utf16.decodeEach s.units).flatMap each ++ ['"'])

end Quoted

end ClassPatch
