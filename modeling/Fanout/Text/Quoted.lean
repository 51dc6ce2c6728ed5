import Fanout.Text.Unprintable

/-!
Quoted text. A quote and a backslash are written behind a backslash, tab, line feed, carriage
return and NUL by their letters, and every other unprintable character by its number in braces;
all else stands for itself.
-/
namespace Fanout.Text.Quoted
open Unprintable

def byNumber (c : Char) : List Char :=
  '\\' :: 'u' :: '\x7b' :: (Nat.toDigits 16 c.toNat ++ ['\x7d'])

def escape (c : Char) : List Char :=
  if c = '"' then ['\\', '"']
  else if c = '\\' then ['\\', '\\']
  else if c = '\t' then ['\\', 't']
  else if c = '\n' then ['\\', 'n']
  else if c = '\r' then ['\\', 'r']
  else if c = '\x00' then ['\\', '0']
  else if unprintable c then byNumber c
  else [c]

def encode (text : List Char) : List Char := text.flatMap escape

theorem encode_nil : encode [] = [] := rfl

theorem encode_cons (c : Char) (text : List Char) : encode (c :: text) = escape c ++ encode text :=
  List.flatMap_cons

def quote (text : String) : String := String.ofList ('"' :: (encode text.toList ++ ['"']))

theorem toList_quote (text : String) :
    (quote text).toList = '"' :: (encode text.toList ++ ['"']) := by
  simp [quote]

/-- A tab by its letter, a quote behind a backslash, a combining accent by its number, é as it is. -/
example : quote "\t\"é\u0301" = "\"\\t\\\"é\\u\x7b301\x7d\"" := by decide

end Fanout.Text.Quoted
