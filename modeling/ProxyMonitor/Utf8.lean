namespace ProxyMonitor.Utf8

/-- A character of several bytes that has begun: how many are still to come, and the bounds of the
next one. -/
structure Begun where
  value : Nat
  more : Nat
  low : Nat
  high : Nat

/-- The bounds of a second byte leave out overlong forms, surrogates and what is no character. -/
def begun? (byte : Nat) : Option Begun :=
  if 0xc2 ≤ byte ∧ byte ≤ 0xdf then some ⟨byte % 32, 1, 0x80, 0xbf⟩
  else if byte = 0xe0 then some ⟨0, 2, 0xa0, 0xbf⟩
  else if byte = 0xed then some ⟨13, 2, 0x80, 0x9f⟩
  else if 0xe1 ≤ byte ∧ byte ≤ 0xef then some ⟨byte % 16, 2, 0x80, 0xbf⟩
  else if byte = 0xf0 then some ⟨0, 3, 0x90, 0xbf⟩
  else if 0xf1 ≤ byte ∧ byte ≤ 0xf3 then some ⟨byte % 8, 3, 0x80, 0xbf⟩
  else if byte = 0xf4 then some ⟨4, 3, 0x80, 0x8f⟩
  else none

def replacement : Char := '\ufffd'

def first (byte : Nat) : List Char × Option Begun :=
  if byte < 0x80 then ([Char.ofNat byte], none)
  else match begun? byte with
    | none => ([replacement], none)
    | some begun => ([], some begun)

/-- A byte that does not go on with what has begun begins anew. -/
def next (begun : Option Begun) (byte : Nat) : List Char × Option Begun :=
  match begun with
  | none => first byte
  | some begun =>
    if begun.low ≤ byte ∧ byte ≤ begun.high then
      let value := 64 * begun.value + byte % 64
      if begun.more = 1 then ([Char.ofNat value], none)
      else ([], some ⟨value, begun.more - 1, 0x80, 0xbf⟩)
    else
      let (chars, begun) := first byte
      (replacement :: chars, begun)

def replaced (begun : Option Begun) : List Nat → List Char
  | [] => if begun.isSome then [replacement] else []
  | byte :: rest =>
    let (chars, begun) := next begun byte
    chars ++ replaced begun rest

def lossy (bytes : ByteArray) : String :=
  (String.fromUTF8? bytes).getD (String.ofList (replaced none (bytes.toList.map UInt8.toNat)))

theorem fromUTF8?_toByteArray (text : String) : String.fromUTF8? text.toByteArray = some text :=
  dif_pos text.isValidUTF8

@[simp]
theorem lossy_toByteArray (text : String) : lossy text.toByteArray = text := by
  rw [lossy, fromUTF8?_toByteArray, Option.getD_some]

example : String.ofList (replaced none [0xe2, 0x82, 0x61, 0xff, 0xe2, 0x82, 0xac, 0xf0, 0x9f]) =
    "\ufffda\ufffd€\ufffd" := by
  decide

end ProxyMonitor.Utf8
