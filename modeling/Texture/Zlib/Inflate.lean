/- Texture/Zlib/Inflate
   digest: Unpacking of compressed blocks: stored bytes, and prefix codes fixed or sent along. -/

import Texture.Bytes

set_option autoImplicit false
set_option relaxedAutoImplicit false

namespace Texture.Zlib.Inflate

/-- The number made of the next bits, least significant first, and the place behind them. Places
count bits from the start. -/
def bits (data : ByteArray) (pos count : Nat) : Option (Nat × Nat) :=
  if 8 * data.size < pos + count then none
  else
    let i := pos / 8
    let word := (Bytes.get data i).toNat + (Bytes.get data (i + 1)).toNat * 256
      + (Bytes.get data (i + 2)).toNat * 65536
    some (word / Nat.pow 2 (pos % 8) % Nat.pow 2 count, pos + count)

/-- A canonical prefix code: how many code words each length from one on has, and the symbols in
the order of their code words. -/
structure Code where
  counts : List Nat
  symbols : Array Nat

/-- Code words that are left unused at the greatest length; none if there are too many words. -/
def unused : List Nat → Nat → Option Nat
  | [], free => some free
  | count :: counts, free => if 2 * free < count then none else unused counts (2 * free - count)

/-- The code with the given word length for each symbol; length zero means no code word. Codes with
unused words are refused, unless they may be sparse and have no word or a single one of length
one. -/
def Code.ofLengths (lengths : List Nat) (sparse : Bool) : Option Code := do
  let counts := (List.range 15).map fun k => lengths.count (k + 1)
  let ranked := (List.range 15).flatMap fun k =>
    lengths.zipIdx.filterMap fun (length, symbol) =>
      if length = k + 1 then some symbol else none
  let free ← unused counts 1
  if free = 0 ∨ (sparse = true ∧ ranked.length = counts.headD 0 ∧ ranked.length ≤ 1) then
    some ⟨counts, ranked.toArray⟩
  else none

/-- Reads bits until they are a code word. At each length, `word` counts on from the first code word
of that length, which is the symbol of rank `rank`. -/
def walk (data : ByteArray) (symbols : Array Nat) :
    List Nat → Nat → Nat → Nat → Option (Nat × Nat)
  | [], _, _, _ => none
  | count :: counts, pos, word, rank => do
    let (bit, pos) ← bits data pos 1
    let word := 2 * word + bit
    if word < count then
      let symbol ← symbols[rank + word]?
      some (symbol, pos)
    else walk data symbols counts pos (word - count) (rank + count)

def Code.next (code : Code) (data : ByteArray) (pos : Nat) : Option (Nat × Nat) :=
  walk data code.symbols code.counts pos 0 0

def fixedLengths : List Nat :=
  List.replicate 144 8 ++ List.replicate 112 9 ++ List.replicate 24 7 ++ List.replicate 8 8

/-- The number of extra bits and the least value of a symbol, in a table whose symbols come in runs
of equal bit counts. -/
def extraTable (start run first : Nat) (groups : Nat) : List (Nat × Nat) :=
  ((List.range groups).foldl
    (fun (state : Nat × List (Nat × Nat)) g =>
      let extra := g - first
      (List.range run).foldl
        (fun (least, rows) _ => (least + Nat.pow 2 extra, rows ++ [(extra, least)])) state)
    (start, [])).2

def lengthTable : Array (Nat × Nat) :=
  ((extraTable 3 4 1 7).take 28 ++ [(0, 258)]).toArray

def distanceTable : Array (Nat × Nat) := (extraTable 1 2 1 15).toArray

/-- Repeats what was written `distance` bytes before, byte by byte. -/
def copy (distance : Nat) : Nat → ByteArray → ByteArray
  | 0, out => out
  | n + 1, out => copy distance n (out.push (Bytes.get out (out.size - distance)))

def symbols (literals distances : Code) (data : ByteArray) :
    Nat → Nat → ByteArray → Option (Nat × ByteArray)
  | 0, _, _ => none
  | fuel + 1, pos, out => do
    let (symbol, pos) ← literals.next data pos
    if symbol < 256 then symbols literals distances data fuel pos (out.push (UInt8.ofNat symbol))
    else if symbol = 256 then some (pos, out)
    else
      let (extra, least) ← lengthTable[symbol - 257]?
      let (more, pos) ← bits data pos extra
      let (symbol, pos) ← distances.next data pos
      let (wide, near) ← distanceTable[symbol]?
      let (far, pos) ← bits data pos wide
      if out.size < near + far then none
      else symbols literals distances data fuel pos (copy (near + far) (least + more) out)

def stored (data : ByteArray) (pos : Nat) (out : ByteArray) : Option (Nat × ByteArray) :=
  let start := (pos + 7) / 8
  if data.size < start + 4 then none
  else
    let size := (Bytes.get data start).toNat + (Bytes.get data (start + 1)).toNat * 256
    let check := (Bytes.get data (start + 2)).toNat + (Bytes.get data (start + 3)).toNat * 256
    if size + check = 65535 ∧ start + 4 + size ≤ data.size then
      some (8 * (start + 4 + size), out ++ data.extract (start + 4) (start + 4 + size))
    else none

def lengthOrder : List Nat := [16, 17, 18, 0, 8, 7, 9, 6, 10, 5, 11, 4, 12, 3, 13, 2, 14, 1, 15]

def triples (data : ByteArray) : Nat → Nat → Option (List Nat × Nat)
  | 0, pos => some ([], pos)
  | n + 1, pos => do
    let (first, pos) ← bits data pos 3
    let (rest, pos) ← triples data n pos
    some (first :: rest, pos)

/-- The code lengths sent under a code of lengths, the latest first; three symbols stand for
runs. -/
def sentLengths (code : Code) (data : ByteArray) (total : Nat) :
    Nat → Nat → List Nat → Option (List Nat × Nat)
  | 0, _, _ => none
  | fuel + 1, pos, sent =>
    if total ≤ sent.length then
      if sent.length = total then some (sent, pos) else none
    else do
      let (symbol, pos) ← code.next data pos
      if symbol < 16 then sentLengths code data total fuel pos (symbol :: sent)
      else if symbol = 16 then
        let last ← sent.head?
        let (more, pos) ← bits data pos 2
        sentLengths code data total fuel pos (List.replicate (3 + more) last ++ sent)
      else
        let (more, pos) ← if symbol = 17 then bits data pos 3 else bits data pos 7
        let run := if symbol = 17 then 3 + more else 11 + more
        sentLengths code data total fuel pos (List.replicate run 0 ++ sent)

def sentCodes (data : ByteArray) (pos : Nat) : Option (Code × Code × Nat) := do
  let (literalCount, pos) ← bits data pos 5
  let (distanceCount, pos) ← bits data pos 5
  let (lengthCount, pos) ← bits data pos 4
  if 29 < literalCount ∨ 29 < distanceCount then none
  else
    let (small, pos) ← triples data (lengthCount + 4) pos
    let ordered := lengthOrder.zip small
    let code ← Code.ofLengths
      ((List.range 19).map fun symbol => (ordered.lookup symbol).getD 0) false
    let total := literalCount + 257 + (distanceCount + 1)
    let (sent, pos) ← sentLengths code data total (total + 1) pos []
    let lengths := sent.reverse
    if lengths.getD 256 0 = 0 then none
    else
      let literals ← Code.ofLengths (lengths.take (literalCount + 257)) false
      let distances ← Code.ofLengths (lengths.drop (literalCount + 257)) true
      some (literals, distances, pos)

/-- The blocks up to the last one. Every step uses up bits, so their number bounds all loops. -/
def blocks (data : ByteArray) : Nat → Nat → ByteArray → Option (Nat × ByteArray)
  | 0, _, _ => none
  | fuel + 1, pos, out => do
    let (last, pos) ← bits data pos 1
    let (kind, pos) ← bits data pos 2
    let (pos, out) ←
      match kind with
      | 0 => stored data pos out
      | 1 => do
        let literals ← Code.ofLengths fixedLengths false
        let distances ← Code.ofLengths (List.replicate 32 5) false
        symbols literals distances data (8 * data.size + 1) pos out
      | 2 => do
        let (literals, distances, pos) ← sentCodes data pos
        symbols literals distances data (8 * data.size + 1) pos out
      | _ => none
    if last = 1 then some (pos, out) else blocks data fuel pos out

/-- Unpacks the blocks that start at a byte, and tells the byte behind them. -/
def inflate (data : ByteArray) (start : Nat) : Option (Nat × ByteArray) := do
  let (pos, out) ← blocks data (8 * data.size + 1) (8 * start) ByteArray.empty
  some ((pos + 7) / 8, out)

end Texture.Zlib.Inflate
