import GenScope.Proofs.Text.Utf8
import GenScope.Terminal.Keyboard
import Mathlib.Logic.Function.Iterate

/-!
# Keypresses and reads

A read takes one byte, or an escape and two bytes (`readKey_events`). That is a whole keypress if it is an
ASCII character or a sequence without parameters, and a part of any other one, so that keypresses are read
one by one exactly if all of them are short (`reads_one_each_iff`). The key is right in any case, but what is
left over of a long keypress is read as another one (`delete_read_twice`).
-/

namespace GenScope

variable {k : Keyboard} {es rest : List InputEvent} {b lead : UInt8}

/-! ### One read -/

namespace Keyboard

theorem readKey_byte (hk : k.started = true) (hb : b ≠ 0x1b) (hevents : k.events = .byte b :: es) :
    k.readKey = (some (Key.decode (Utf8.decodeLossy [b])), { k with events := es }) := by
  rw [readKey, if_pos hk, hevents, keypress, arrival]
  dsimp only
  rw [if_neg hb]
  rfl

theorem readKey_escape (hk : k.started = true) (hevents : k.events = .byte 0x1b :: .byte lead :: .byte b :: es) :
    k.readKey = (some (Key.decode (Utf8.decodeLossy [0x1b, lead, b])), { k with events := es }) := by
  rw [readKey, if_pos hk, hevents]
  rfl

end Keyboard

namespace Key

/-- The arrow of a sequence that ends in the byte. -/
def arrow? : UInt8 → Option Key
  | 0x41 => some .up
  | 0x42 => some .down
  | 0x43 => some .right
  | 0x44 => some .left
  | _ => none

theorem arrow?_eq_none (hb : b.toNat < 0x40) : arrow? b = none := by
  unfold arrow?
  split
  case h_5 => rfl
  all_goals exact absurd hb (by decide)

theorem decode_single {c : Char} (hc : c ≠ escapeChar) :
    decode [c] = if c = '\r' ∨ c = '\n' then .enter else .other := by
  rw [decode, if_neg hc]
  simp

theorem lookup_sequences (hb : b.toNat < 0x80) (harrow : arrow? b = none) (c : Char) :
    sequences.lookup [c, Char.ofNat b.toNat] = none := by
  have hne {a : UInt8} (ha : a.toNat < 0x80) (hkey : arrow? a ≠ none) :
      Char.ofNat b.toNat ≠ Char.ofNat a.toNat := by
    intro heq
    obtain rfl := Utf8.ofNat_toNat_inj hb ha heq
    exact hkey harrow
  have hA : Char.ofNat b.toNat ≠ 'A' := hne (a := 0x41) (by decide) (by decide)
  have hB : Char.ofNat b.toNat ≠ 'B' := hne (a := 0x42) (by decide) (by decide)
  have hC : Char.ofNat b.toNat ≠ 'C' := hne (a := 0x43) (by decide) (by decide)
  have hD : Char.ofNat b.toNat ≠ 'D' := hne (a := 0x44) (by decide) (by decide)
  simp [sequences, List.lookup_eq_none_iff, hA, hB, hC, hD]

theorem decode_escape (hlead : lead = 0x4f ∨ lead = 0x5b) (hb : b.toNat < 0x80) :
    decode (Utf8.decodeLossy [0x1b, lead, b]) = (arrow? b).getD .other := by
  have hascii : lead.toNat < 0x80 := by rcases hlead with rfl | rfl <;> decide
  have hlossy : Utf8.decodeLossy [0x1b, lead, b] = [escapeChar, Char.ofNat lead.toNat, Char.ofNat b.toNat] := by
    rw [Utf8.decodeLossy_cons_ascii (by decide), Utf8.decodeLossy_cons_ascii hascii, Utf8.decodeLossy_cons_ascii hb]
    rfl
  rw [hlossy]
  show (sequences.lookup [Char.ofNat lead.toNat, Char.ofNat b.toNat]).getD .other = _
  rcases harrow : arrow? b with _ | key
  · rw [lookup_sequences hb harrow]
  · unfold arrow? at harrow
    split at harrow <;> cases harrow
    all_goals rcases hlead with rfl | rfl <;> rfl

end Key

/-! ### Keypresses -/

/-- A keypress as a terminal sends it: an encoded character, an escape with `O` and a letter, or an escape
with `[`, parameters, intermediates and a final byte. -/
inductive Keypress
  | char (c : Char) (hc : c ≠ Key.escapeChar)
  | letter (b : UInt8) (hb : (0x41 ≤ b.toNat ∧ b.toNat ≤ 0x5A) ∨ (0x61 ≤ b.toNat ∧ b.toNat ≤ 0x7A))
  | sequence (parameters intermediates : Bytes) (final : UInt8)
      (hparameters : ∀ b ∈ parameters, 0x30 ≤ b.toNat ∧ b.toNat ≤ 0x3F)
      (hintermediates : ∀ b ∈ intermediates, 0x20 ≤ b.toNat ∧ b.toNat ≤ 0x2F)
      (hfinal : 0x40 ≤ final.toNat ∧ final.toNat ≤ 0x7E)

namespace Keypress

variable {p : Keypress} {parameters intermediates : Bytes} {final : UInt8}

def bytes : Keypress → Bytes
  | char c _ => String.utf8EncodeChar c
  | letter b _ => [0x1b, 0x4f, b]
  | sequence parameters intermediates final .. => 0x1b :: 0x5b :: (parameters ++ intermediates ++ [final])

/-- The bytes arrive together. -/
def events (p : Keypress) : List InputEvent := p.bytes.map .byte

/-- What arrives of keypresses, one after another. -/
def stream (presses : List Keypress) : List InputEvent := presses.flatMap events

theorem stream_cons (p : Keypress) (presses : List Keypress) : stream (p :: presses) = p.events ++ stream presses :=
  rfl

/-- What is pressed: an arrow or Enter, or any other key. -/
def key : Keypress → Key
  | char c _ => if c = '\r' ∨ c = '\n' then .enter else .other
  | letter b _ => (Key.arrow? b).getD .other
  | sequence parameters intermediates final .. =>
    if parameters = [] ∧ intermediates = [] then (Key.arrow? final).getD .other else .other

/-- An ASCII character, or an escape and two bytes. -/
def IsShort : Keypress → Prop
  | char c _ => c.toNat < 0x80
  | letter .. => True
  | sequence parameters intermediates .. => parameters = [] ∧ intermediates = []

/-- The number of bytes that a read takes. -/
def taken : Keypress → Nat
  | char .. => 1
  | _ => 3

theorem drop_taken_eq_nil_iff : p.bytes.drop p.taken = [] ↔ p.IsShort := by
  cases p with
  | char c hc =>
    show (String.utf8EncodeChar c).drop 1 = [] ↔ c.toNat < 0x80
    by_cases hascii : c.toNat < 0x80
    · simp [Utf8.encodeChar_ascii hascii, hascii]
    · obtain ⟨b, tail, hencode, -, htail⟩ := Utf8.encodeChar_not_ascii (c := c) (by omega)
      simp [hencode, hascii, htail]
  | letter b hb => simp [bytes, taken, IsShort]
  | sequence parameters intermediates final =>
    show (parameters ++ intermediates ++ [final]).drop 1 = [] ↔ parameters = [] ∧ intermediates = []
    rw [List.drop_eq_nil_iff, List.length_append, List.length_append, List.length_singleton,
      ← List.length_eq_zero_iff, ← List.length_eq_zero_iff]
    omega

/-- The first byte behind the bracket tells an arrow: parameters and intermediates are no letters. -/
theorem exists_first (hparameters : ∀ b ∈ parameters, 0x30 ≤ b.toNat ∧ b.toNat ≤ 0x3F)
    (hintermediates : ∀ b ∈ intermediates, 0x20 ≤ b.toNat ∧ b.toNat ≤ 0x2F)
    (hfinal : 0x40 ≤ final.toNat ∧ final.toNat ≤ 0x7E) :
    ∃ b tail, parameters ++ intermediates ++ [final] = b :: tail ∧ b.toNat < 0x80 ∧
      (Key.arrow? b).getD .other = (sequence parameters intermediates final hparameters hintermediates hfinal).key := by
  unfold key
  rcases parameters with _ | ⟨b, parameters⟩
  · rcases intermediates with _ | ⟨b, intermediates⟩
    · exact ⟨final, [], rfl, by omega, by simp⟩
    · obtain ⟨-, hhigh⟩ := hintermediates b (by simp)
      exact ⟨b, _, rfl, by omega, by simp [Key.arrow?_eq_none (b := b) (by omega)]⟩
  · obtain ⟨-, hhigh⟩ := hparameters b (by simp)
    exact ⟨b, _, rfl, by omega, by simp [Key.arrow?_eq_none (b := b) (by omega)]⟩

theorem readKey_char {c : Char} (hc : c ≠ Key.escapeChar) (hk : k.started = true)
    (hevents : k.events = (char c hc).events ++ es) :
    k.readKey = (some (char c hc).key, { k with events := ((char c hc).bytes.drop 1).map .byte ++ es }) := by
  by_cases hascii : c.toNat < 0x80
  · have hbytes : (char c hc).bytes = [UInt8.ofNat c.toNat] := Utf8.encodeChar_ascii hascii
    have htoNat : (UInt8.ofNat c.toNat).toNat = c.toNat := by simp; omega
    have hb : UInt8.ofNat c.toNat ≠ 0x1b := by
      intro hb
      rw [hb] at htoNat
      exact hc (Char.toNat_inj.1 htoNat.symm)
    rw [events, hbytes] at hevents
    rw [Keyboard.readKey_byte hk hb hevents, Utf8.decodeLossy_cons_ascii (by omega), htoNat, Char.ofNat_toNat, hbytes]
    show (some (Key.decode [c]), _) = _
    rw [Key.decode_single hc]
    rfl
  · obtain ⟨b, tail, hbytes, hb, -⟩ := Utf8.encodeChar_not_ascii (c := c) (by omega)
    have hbytes : (char c hc).bytes = b :: tail := hbytes
    have hescape : b ≠ 0x1b := by
      rintro rfl
      exact absurd hb (by decide)
    have hkey : (char c hc).key = .other := by
      refine if_neg ?_
      rintro (rfl | rfl)
      all_goals exact hascii (by decide)
    rw [events, hbytes] at hevents
    rw [Keyboard.readKey_byte hk hescape hevents, Utf8.decodeLossy_single hb, hkey, hbytes]
    rfl

/-- A read gives the key of the first keypress and takes its first bytes. -/
theorem readKey_events (p : Keypress) (hk : k.started = true) (hevents : k.events = p.events ++ es) :
    k.readKey = (some p.key, { k with events := (p.bytes.drop p.taken).map .byte ++ es }) := by
  cases p with
  | char c hc => exact readKey_char hc hk hevents
  | letter b hb =>
    rw [Keyboard.readKey_escape hk hevents, Key.decode_escape (.inl rfl) (by omega)]
    rfl
  | sequence parameters intermediates final hparameters hintermediates hfinal =>
    obtain ⟨b, tail, hfirst, hb, hkey⟩ := exists_first hparameters hintermediates hfinal
    have hbytes : (sequence parameters intermediates final hparameters hintermediates hfinal).bytes =
        0x1b :: 0x5b :: b :: tail := by rw [← hfirst]; rfl
    rw [events, hbytes] at hevents
    rw [Keyboard.readKey_escape hk hevents, Key.decode_escape (.inr rfl) hb, hkey, hbytes]
    rfl

end Keypress

/-! ### Any number of reads -/

namespace Keyboard

def afterReads (k : Keyboard) (n : Nat) : Keyboard := (fun k => k.readKey.2)^[n] k

theorem afterReads_succ (k : Keyboard) (n : Nat) : k.afterReads (n + 1) = k.readKey.2.afterReads n := rfl

open Keypress in
/-- Each read takes exactly one keypress and gives its key if and only if all keypresses are short. -/
theorem reads_one_each_iff (hk : k.started = true) (presses : List Keypress)
    (hevents : k.events = stream presses ++ rest) :
    (∀ i (hi : i < presses.length), (k.afterReads i).readKey =
        (some presses[i].key, { k with events := stream (presses.drop (i + 1)) ++ rest })) ↔
      ∀ p ∈ presses, p.IsShort := by
  induction presses generalizing k with
  | nil => simp
  | cons p presses ih =>
    rw [stream_cons, List.append_assoc] at hevents
    have hread := p.readKey_events hk hevents
    -- the first read leaves the other keypresses if and only if the first keypress is short
    have hfirst : k.readKey = (some p.key, { k with events := stream presses ++ rest }) ↔ p.IsShort := by
      rw [hread, ← drop_taken_eq_nil_iff]
      simp
    have hothers := ih (k := { k with events := stream presses ++ rest }) hk rfl
    have hafter (hp : p.IsShort) (i : Nat) :
        k.afterReads (i + 1) = afterReads { k with events := stream presses ++ rest } i := by
      rw [afterReads_succ, hfirst.2 hp]
    constructor
    · intro h
      have hp : p.IsShort := hfirst.1 (h 0 (by simp))
      refine List.forall_mem_cons.2 ⟨hp, hothers.1 fun i hi => ?_⟩
      rw [← hafter hp]
      exact h (i + 1) (by simpa using hi)
    · intro h
      obtain ⟨hp, hrest⟩ := List.forall_mem_cons.1 h
      intro i hi
      rcases i with _ | i
      · exact hfirst.2 hp
      · rw [hafter hp]
        exact hothers.2 hrest i (by simpa using hi)

theorem reads_one_each_iff_arrows :
    let presses : List Keypress := [.char 'x' (by decide), .letter 0x41 (by decide),
      .sequence [] [] 0x42 (fun _ h => nomatch h) (fun _ h => nomatch h) (by decide), .char '\r' (by decide)]
    let k : Keyboard := (ofEvents .ordinary (Keypress.stream presses ++ [.pause])).start
    (k.started = true ∧ k.events = Keypress.stream presses ++ [.pause]) ∧
    ∀ i (hi : i < presses.length), (k.afterReads i).readKey =
      (some presses[i].key, { k with events := Keypress.stream (presses.drop (i + 1)) ++ [.pause] }) := by
  intro presses k
  refine ⟨⟨rfl, rfl⟩, (reads_one_each_iff rfl presses rfl).2 ?_⟩
  simp [presses, Keypress.IsShort]

/-- Of the key that deletes the last byte is left over, and of a letter with an accent the second one. Either
is read as another keypress. -/
theorem delete_read_twice :
    let delete : Keypress :=
      .sequence [0x33] [] 0x7e (List.forall_mem_singleton.2 (by decide)) (fun _ h => nomatch h) (by decide)
    let accented : Keypress := .char 'é' (by decide)
    let k : Keyboard := (ofEvents .ordinary (Keypress.stream [delete, accented])).start
    k.started = true ∧ k.readKey = (some .other, { k with events := .byte 0x7e :: accented.events }) ∧
      (k.afterReads 1).readKey = (some .other, { k with events := accented.events }) ∧
      (k.afterReads 2).readKey = (some .other, { k with events := [.byte 0xa9] }) ∧
      (k.afterReads 3).readKey = (some .other, { k with events := [] }) := by
  intro delete accented k
  decide

end Keyboard

end GenScope
