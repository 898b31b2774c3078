/- Texture/Json/Token
   digest: Stored texts cut into brackets, marks, words, numbers and strings. -/

import Texture.Json.Lexeme

set_option autoImplicit false
set_option relaxedAutoImplicit false

namespace Texture.Json

/-- A piece of a string: a character, or a number of sixteen bits spelled in hexadecimal digits. -/
inductive Piece where
  | char (c : Char)
  | unit (n : Nat)
  deriving DecidableEq

inductive Token where
  | openArray
  | closeArray
  | openObject
  | closeObject
  | comma
  | colon
  | null
  | bool (b : Bool)
  | number (l : Lexeme)
  | string (pieces : List Piece)

namespace Token

/-- What the characters read last belong to; what is gathered is kept in reverse. -/
inductive Mode where
  | plain
  | word (cs : List Char)
  | number (cs : List Char)
  | string (ps : List Piece)
  | escape (ps : List Piece)
  | unit (ps : List Piece) (n digits : Nat)

def ofWord (cs : List Char) : Option Token :=
  match String.ofList cs with
  | "null" => some null
  | "true" => some (bool true)
  | "false" => some (bool false)
  | _ => none

def hexValue? (c : Char) : Option Nat :=
  let n := c.toNat
  if 48 ≤ n ∧ n ≤ 57 then some (n - 48)
  else if 97 ≤ n ∧ n ≤ 102 then some (n - 87)
  else if 65 ≤ n ∧ n ≤ 70 then some (n - 55)
  else none

/-- The character that stands behind a backslash for another one. -/
def escaped? : Char → Option Char
  | '"' => some '"'
  | '\\' => some '\\'
  | '/' => some '/'
  | 'b' => some (Char.ofNat 8)
  | 'f' => some (Char.ofNat 12)
  | 'n' => some '\n'
  | 'r' => some '\r'
  | 't' => some '\t'
  | _ => none

def isNumberPart (c : Char) : Bool :=
  c.isDigit || c == '+' || c == '-' || c == '.' || c == 'e' || c == 'E'

def begin (tokens : List Token) (c : Char) : Option (List Token × Mode) :=
  if c = ' ' ∨ c = '\t' ∨ c = '\n' ∨ c = '\r' then some (tokens, .plain)
  else if c = '[' then some (openArray :: tokens, .plain)
  else if c = ']' then some (closeArray :: tokens, .plain)
  else if c.toNat = 0x7b then some (openObject :: tokens, .plain)
  else if c.toNat = 0x7d then some (closeObject :: tokens, .plain)
  else if c = ',' then some (comma :: tokens, .plain)
  else if c = ':' then some (colon :: tokens, .plain)
  else if c = '"' then some (tokens, .string [])
  else if c = '-' ∨ c.isDigit then some (tokens, .number [c])
  else if c.isLower then some (tokens, .word [c])
  else none

def finish (tokens : List Token) : Mode → Option (List Token)
  | .plain => some tokens
  | .word cs => (ofWord cs.reverse).map (· :: tokens)
  | .number cs => (Lexeme.ofChars? cs.reverse).map fun l => number l :: tokens
  | _ => none

def step (state : List Token × Mode) (c : Char) : Option (List Token × Mode) :=
  let (tokens, mode) := state
  match mode with
  | .plain => begin tokens c
  | .word cs =>
    if c.isLower then some (tokens, .word (c :: cs))
    else (finish tokens mode).bind (begin · c)
  | .number cs =>
    if isNumberPart c then some (tokens, .number (c :: cs))
    else (finish tokens mode).bind (begin · c)
  | .string ps =>
    if c = '"' then some (string ps.reverse :: tokens, .plain)
    else if c = '\\' then some (tokens, .escape ps)
    else if c.toNat < 32 then none
    else some (tokens, .string (.char c :: ps))
  | .escape ps =>
    if c = 'u' then some (tokens, .unit ps 0 0)
    else (escaped? c).map fun d => (tokens, .string (.char d :: ps))
  | .unit ps n digits =>
    (hexValue? c).map fun d =>
      let n := 16 * n + d
      if digits = 3 then (tokens, .string (.unit n :: ps)) else (tokens, .unit ps n (digits + 1))

def ofText? (text : String) : Option (List Token) := do
  let (tokens, mode) ← text.toList.foldlM step ([], .plain)
  (finish tokens mode).map List.reverse

end Token

end Texture.Json
