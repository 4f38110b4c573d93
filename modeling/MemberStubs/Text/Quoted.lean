import MemberStubs.Text.Extender
import MemberStubs.Text.Printable

namespace MemberStubs.Text

/-! Text in double quotes as a message shows it: quotes and backslashes are escaped, and so is
every character that would not show, or would join the character before it. -/

def codeEscape (c : Char) : List Char :=
  "\\u\x7b".toList ++ Nat.toDigits 16 c.toNat ++ ['}']

def quotedChar (c : Char) : List Char :=
  match c with
  | '\x00' => ['\\', '0']
  | '\t' => ['\\', 't']
  | '\r' => ['\\', 'r']
  | '\n' => ['\\', 'n']
  | '\"' => ['\\', '\"']
  | '\\' => ['\\', '\\']
  | _ => if isExtender c || !isPrintable c then codeEscape c else [c]

def quoted (text : String) : String :=
  String.ofList ('\"' :: text.toList.flatMap quotedChar ++ ['\"'])

example : quotedChar '\x1b' = "\\u\x7b1b\x7d".toList := by decide

end MemberStubs.Text
