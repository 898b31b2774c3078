/- Texture/Text/Quoted
   digest: Texts in double quotes with everything that cannot be shown spelled out. -/

import Texture.Text.Hidden

set_option autoImplicit false
set_option relaxedAutoImplicit false

namespace Texture.Text.Quoted

def quoteChar (c : Char) : List Char :=
  if c = '\t' then ['\\', 't']
  else if c = '\n' then ['\\', 'n']
  else if c = '\r' then ['\\', 'r']
  else if c = '"' then ['\\', '"']
  else if c = '\\' then ['\\', '\\']
  else if c.toNat = 0 then ['\\', '0']
  else if isHidden c then
    ['\\', 'u', '\x7b'] ++ Nat.toDigits 16 c.toNat ++ ['\x7d']
  else [c]

def quote (text : String) : String :=
  String.ofList ('"' :: (text.toList.flatMap quoteChar ++ ['"']))

end Texture.Text.Quoted
