import Dotpath.Text.Visible

/-!
# Strings quoted for people

A quoted string shows every character: what has no form of its own is escaped by its code point.
-/

namespace Dotpath.Text

/-- A character inside visible quotes. -/
def escapeVisible (c : Char) : List Char :=
  if c = '\x00' then ['\\', '0']
  else if c = '\t' then ['\\', 't']
  else if c = '\r' then ['\\', 'r']
  else if c = '\n' then ['\\', 'n']
  else if c = '"' then ['\\', '"']
  else if c = '\\' then ['\\', '\\']
  else if isVisible c then [c]
  else ['\\', 'u', '\x7b'] ++ Nat.toDigits 16 c.toNat ++ ['\x7d']

def quoteVisible (text : String) : String :=
  .ofList ('"' :: (text.toList.flatMap escapeVisible ++ ['"']))

end Dotpath.Text
