import RecordFilter.Text.Printable

/-! Quoted texts, in which every character that does not show, or that would end the quotation, is
written as an escape. -/

namespace RecordFilter.Text.Quoted

def encodeChar (c : Char) : Text :=
  if c == '\x00' then ['\\', '0']
  else if c == '\t' then ['\\', 't']
  else if c == '\r' then ['\\', 'r']
  else if c == '\n' then ['\\', 'n']
  else if c == '"' then ['\\', '"']
  else if c == '\\' then ['\\', '\\']
  else if isPrintable c then [c]
  else '\\' :: 'u' :: '\x7b' :: Nat.toDigits 16 c.toNat ++ ['\x7d']

def encode (text : Text) : Text := '"' :: text.flatMap encodeChar ++ ['"']

end RecordFilter.Text.Quoted
