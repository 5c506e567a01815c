import Mathlib.Data.List.Basic

/-!
# A decoder that is fed byte by byte

The UTF-8 decoder of a `TextDecoder` that is fatal and reads a stream. It keeps what it has of an
unfinished character between two chunks, drops a byte order mark in front, and refuses the first
byte that no character continues with. Decoding two chunks one after the other is decoding them at
once (`decode_append`), and a byte completes at most one character.
-/

/-- What a decoder keeps between two bytes: how many bytes the character it reads still needs, the
bounds on the next of them, the bits it has, and whether any character was read. -/
structure TextDecoder where
  owed : ℕ := 0
  lower : ℕ := 0x80
  upper : ℕ := 0xBF
  codePoint : ℕ := 0
  started : Bool := false
  deriving DecidableEq

namespace TextDecoder

variable {d d' d'' : TextDecoder} {a b : List UInt8} {t t' : List Char}

/-- A character is complete. A byte order mark in front is dropped. -/
def emit (d : TextDecoder) (codePoint : ℕ) : TextDecoder × List Char :=
  ({ started := true },
    if codePoint = 0xFEFF ∧ d.started = false then [] else [Char.ofNat codePoint])

/-- The first byte of a character. -/
def lead (d : TextDecoder) (b : ℕ) : Option (TextDecoder × List Char) :=
  if b ≤ 0x7F then some (d.emit b)
  else if 0xC2 ≤ b ∧ b ≤ 0xDF then some ({ d with owed := 1, codePoint := b % 0x20 }, [])
  else if 0xE0 ≤ b ∧ b ≤ 0xEF then
    some ({ d with
      owed := 2
      lower := if b = 0xE0 then 0xA0 else 0x80
      upper := if b = 0xED then 0x9F else 0xBF
      codePoint := b % 0x10 }, [])
  else if 0xF0 ≤ b ∧ b ≤ 0xF4 then
    some ({ d with
      owed := 3
      lower := if b = 0xF0 then 0x90 else 0x80
      upper := if b = 0xF4 then 0x8F else 0xBF
      codePoint := b % 0x8 }, [])
  else none

/-- One byte. -/
def step (d : TextDecoder) (byte : UInt8) : Option (TextDecoder × List Char) :=
  let b := byte.toNat
  if d.owed = 0 then d.lead b
  else if d.lower ≤ b ∧ b ≤ d.upper then
    let codePoint := d.codePoint * 0x40 + b % 0x40
    if d.owed = 1 then some (d.emit codePoint)
    else some ({ d with owed := d.owed - 1, lower := 0x80, upper := 0xBF, codePoint }, [])
  else none

/-- `decoder.decode(chunk, { stream: true })`. -/
def decode (d : TextDecoder) : List UInt8 → Option (TextDecoder × List Char)
  | [] => some (d, [])
  | b :: rest =>
    (d.step b).bind fun one ↦ (one.1.decode rest).map fun more ↦ (more.1, one.2 ++ more.2)

/-- `decoder.decode()` does not throw. -/
def complete (d : TextDecoder) : Bool :=
  decide (d.owed = 0)

theorem length_emit_le (codePoint : ℕ) : (d.emit codePoint).2.length ≤ 1 := by
  unfold emit
  dsimp only
  split_ifs <;> simp

/-- A byte completes at most one character. -/
theorem length_step_le {byte : UInt8} (h : d.step byte = some (d', t)) : t.length ≤ 1 := by
  have hemit : ∀ codePoint, some (d.emit codePoint) = some (d', t) → t.length ≤ 1 := by
    intro codePoint heq
    obtain rfl := congrArg Prod.snd (Option.some.inj heq)
    exact length_emit_le codePoint
  simp only [step, lead] at h
  split_ifs at h
  all_goals first
    | exact hemit _ h
    | cases h; exact Nat.zero_le 1

theorem length_decode_singleton_le {byte : UInt8} (h : d.decode [byte] = some (d', t)) :
    t.length ≤ 1 := by
  rw [decode] at h
  obtain ⟨one, hstep, hrest⟩ := Option.bind_eq_some_iff.1 h
  cases hrest
  rw [List.append_nil]
  exact length_step_le hstep

/-- Decoding a chunk and then another is decoding both at once. -/
theorem decode_append : d.decode (a ++ b) =
    (d.decode a).bind fun one ↦ (one.1.decode b).map fun more ↦ (more.1, one.2 ++ more.2) := by
  induction a generalizing d with
  | nil => simp [decode]
  | cons byte a ih =>
    rw [List.cons_append, decode, decode]
    cases d.step byte with
    | none => rfl
    | some one =>
      simp only [Option.bind_some, ih]
      cases one.1.decode a with
      | none => rfl
      | some two =>
        simp only [Option.bind_some, Option.map_some]
        cases two.1.decode b with
        | none => rfl
        | some three => simp [List.append_assoc]

theorem decode_append_of (ha : d.decode a = some (d', t)) (hb : d'.decode b = some (d'', t')) :
    d.decode (a ++ b) = some (d'', t ++ t') := by
  rw [decode_append, ha, Option.bind_some, hb, Option.map_some]

/-- What is decoded of two chunks. -/
theorem decode_append_eq_some (h : d.decode (a ++ b) = some (d'', t)) :
    ∃ d' t₁ t₂, d.decode a = some (d', t₁) ∧ d'.decode b = some (d'', t₂) ∧ t = t₁ ++ t₂ := by
  rw [decode_append] at h
  obtain ⟨⟨d', t₁⟩, ha, h⟩ := Option.bind_eq_some_iff.1 h
  obtain ⟨⟨d₂, t₂⟩, hb, heq⟩ := Option.map_eq_some_iff.1 h
  obtain ⟨rfl, rfl⟩ := Prod.mk.inj heq
  exact ⟨d', t₁, t₂, ha, hb, rfl⟩

/-- Bytes that cannot be decoded have a first one that cannot. -/
theorem exists_split_of_decode_eq_none (h : d.decode a = none) :
    ∃ start byte rest decoder text, a = start ++ byte :: rest ∧
      d.decode start = some (decoder, text) ∧ d.decode (start ++ [byte]) = none := by
  induction a generalizing d with
  | nil => cases h
  | cons byte a ih =>
    rw [decode] at h
    cases hstep : d.step byte with
    | none =>
      refine ⟨[], byte, a, d, [], rfl, rfl, ?_⟩
      rw [List.nil_append, decode, hstep, Option.bind_none]
    | some one =>
      rw [hstep, Option.bind_some] at h
      obtain ⟨start, byte', rest, decoder, text, rfl, hstart, hnone⟩ :=
        ih (Option.map_eq_none_iff.1 h)
      refine ⟨byte :: start, byte', rest, decoder, one.2 ++ text, rfl, ?_, ?_⟩
      · rw [decode, hstep, Option.bind_some, hstart, Option.map_some]
      · rw [List.cons_append, decode, hstep, Option.bind_some, hnone, Option.map_none]

/-! ### A decoder that replaces what it cannot read

The UTF-8 decoder of a `TextDecoder` that is not fatal. What no character continues with ends the
character that was begun, with a replacement character in its place, and is read again as the first
byte of one; a byte that no character starts with is replaced itself. Nothing is refused. -/

/-- `U+FFFD`. -/
def replacement : Char :=
  Char.ofNat 0xFFFD

/-- Between two characters, after the first one. -/
def restarted : TextDecoder where
  started := true

/-- One byte. -/
def lenientStep (d : TextDecoder) (byte : UInt8) : TextDecoder × List Char :=
  match d.step byte with
  | some one => one
  | none =>
    if d.owed = 0 then (restarted, [replacement])
    else
      match restarted.step byte with
      | some one => (one.1, replacement :: one.2)
      | none => (restarted, [replacement, replacement])

/-- `decoder.decode(chunk, { stream: true })`. -/
def lenient (d : TextDecoder) : List UInt8 → TextDecoder × List Char
  | [] => (d, [])
  | b :: rest =>
    let one := d.lenientStep b
    let more := one.1.lenient rest
    (more.1, one.2 ++ more.2)

/-- `decoder.decode()`. -/
def flush (d : TextDecoder) : List Char :=
  if d.complete then [] else [replacement]

/-- Decoding a chunk and then another is decoding both at once. -/
theorem lenient_append : d.lenient (a ++ b) =
    (((d.lenient a).1.lenient b).1, (d.lenient a).2 ++ ((d.lenient a).1.lenient b).2) := by
  induction a generalizing d with
  | nil => rfl
  | cons byte a ih =>
    rw [List.cons_append, lenient, lenient]
    simp only [ih, List.append_assoc]

example : ((({} : TextDecoder).lenient [0x41, 0xE2, 0x82, 0x41, 0xFF]).2 =
    ['A', replacement, 'A', replacement]) := by decide

end TextDecoder
