import GrammarFile.Text.Digits
import GrammarFile.Text.GraphemeExtend
import GrammarFile.Text.Unprintable

/-!
# Quoted texts

A text in double quotes on one line, from which it can be read off unambiguously: quotes, backslashes
and the common controls have short escapes, and every other character that cannot be shown, or that
would merge with the one before, is written as its code in base sixteen.
-/

namespace GrammarFile.Text

/-- One character inside quotes. -/
def quoteChar (c : Char) : List Char :=
  if c = '\x00' then ['\\', '0']
  else if c = '\t' then ['\\', 't']
  else if c = '\r' then ['\\', 'r']
  else if c = '\n' then ['\\', 'n']
  else if c = '\x22' then ['\\', '\x22']
  else if c = '\\' then ['\\', '\\']
  else if graphemeExtend.contains c || unprintable.contains c then
    '\\' :: 'u' :: '\x7b' :: ((hex c.toNat).toList ++ ['\x7d'])
  else [c]

/-- A text in quotes. -/
def quoted (text : String) : String :=
  String.ofList ('\x22' :: (text.toList.flatMap quoteChar ++ ['\x22']))

end GrammarFile.Text
