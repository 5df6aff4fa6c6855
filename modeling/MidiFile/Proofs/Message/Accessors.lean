import MidiFile.Proofs.Message.Wire

/-! # What a message was made of

The accessors of a meta message look behind its length for what was put there, so the payload comes
back whole, however many bytes its length takes (`Message.payload?_ofPayload`). What a payload stands
for comes back with it: a text, as bytes that spell a text are that text and nothing else
(`Text.lossy_toUTF8`), a tempo of three bytes, and a time signature, whose denominator is kept as the
power of two that it is. Whatever can be made can also be made of its own bytes
(`Message.accessors_exact`).
-/

namespace MidiFile

/-- The bytes of a text spell that text. -/
theorem Text.lossy_toUTF8 (text : String) : lossy text.toUTF8.data.toList = text := by
  have bytes : text.toUTF8.data.toList.toByteArray = text.toUTF8 := ByteArray.ext List.data_toByteArray
  have valid : String.fromUTF8? text.toUTF8 = some text := dif_pos text.isValidUTF8
  rw [lossy, bytes, valid]

namespace TimeSignature

variable {signature : TimeSignature} {exponent : Nat}

theorem exponent?_eq_some_iff : signature.exponent? = some exponent ↔ Nat.pow 2 exponent = signature.denominator.toNat := by
  simp only [exponent?, Option.ite_none_right_eq_some, Option.some.injEq]
  constructor
  · rintro ⟨power, rfl⟩
    exact power
  · intro power
    have log : signature.denominator.toNat.log2 = exponent := power ▸ Nat.log2_two_pow
    exact ⟨log ▸ power, log⟩

theorem exists_exponent?_iff : (∃ exponent, signature.exponent? = some exponent) ↔ signature.denominator.toNat.isPowerOfTwo := by
  simp only [exponent?_eq_some_iff]
  exact ⟨fun ⟨exponent, power⟩ => ⟨exponent, power.symm⟩, fun ⟨exponent, power⟩ => ⟨exponent, power.symm⟩⟩

/-- A denominator is a byte, so it is one of eight powers. -/
theorem exponent_lt (power : Nat.pow 2 exponent = signature.denominator.toNat) : exponent < 8 := by
  have byte := signature.denominator.toNat_lt
  by_contra large
  have most : Nat.pow 2 8 ≤ Nat.pow 2 exponent := Nat.pow_le_pow_right (by decide) (Nat.le_of_not_lt large)
  exact absurd byte (Nat.not_lt.mpr (power ▸ most))

end TimeSignature

namespace Message

variable {message : Message} {kind : UInt8} {payload : List UInt8}

theorem exists_ofPayload_iff : (∃ message, ofPayload kind payload = .ok message) ↔
    kind.toNat < 0x80 ∧ payload.length < 0x10000000 := by
  rw [← Vlq.exists_block_iff]
  simp only [ofPayload, bind, bind_ok_iff, ensure_ok_iff, decide_eq_true_eq]
  constructor
  · rintro ⟨_, _, low, field, block, _⟩
    exact ⟨low, field, block⟩
  · rintro ⟨low, field, block⟩
    exact ⟨_, (), low, field, block, rfl⟩

/-- A made meta message has its kind, and its payload in full. -/
theorem payload?_ofPayload (made : ofPayload kind payload = .ok message) :
    message.metaKind? = some kind ∧ message.payload? = some payload := by
  simp only [ofPayload, bind, bind_ok_iff] at made
  obtain ⟨_, _, field, block, done⟩ := made
  obtain ⟨length, _, rfl⟩ := Vlq.block_ok_iff.mp block
  cases done
  exact ⟨rfl, by rw [payload?, Vlq.read_encode]⟩

theorem payloadOf?_ofPayload (made : ofPayload kind payload = .ok message) : message.payloadOf? kind = some payload := by
  obtain ⟨isKind, isPayload⟩ := payload?_ofPayload made
  rw [payloadOf?, if_pos isKind, isPayload]

theorem exists_ofText_iff {text : String} : (∃ message, ofText kind text = .ok message) ↔
    1 ≤ kind.toNat ∧ kind.toNat ≤ 9 ∧ text.utf8ByteSize < 0x10000000 := by
  have size : text.toUTF8.data.toList.length = text.utf8ByteSize := Array.length_toList
  simp only [ofText, bind, bind_ok_iff, ensure_ok_iff, MetaKind.isText, Bool.and_eq_true, decide_eq_true_eq]
  constructor
  · rintro ⟨message, _, ⟨least, most⟩, made⟩
    exact ⟨least, most, size ▸ (exists_ofPayload_iff.mp ⟨message, made⟩).2⟩
  · rintro ⟨least, most, short⟩
    have low : kind.toNat < 0x80 := Nat.lt_of_le_of_lt most (by decide)
    obtain ⟨message, made⟩ := exists_ofPayload_iff.mpr ⟨low, size.symm ▸ short⟩
    exact ⟨message, (), ⟨least, most⟩, made⟩

theorem text?_ofText {text : String} (made : ofText kind text = .ok message) : message.text? = some text := by
  simp only [ofText, bind, bind_ok_iff, ensure_ok_iff] at made
  obtain ⟨_, isText, made⟩ := made
  obtain ⟨isKind, isPayload⟩ := payload?_ofPayload made
  have textual : message.isTextual = true := by rw [isTextual, isKind, Option.any_some, isText]
  rw [text?, if_pos textual, isPayload, Option.map_some, Text.lossy_toUTF8]

theorem exists_ofTempo_iff {microseconds : Nat} :
    (∃ message, ofTempo microseconds = .ok message) ↔ 1 ≤ microseconds ∧ microseconds ≤ 0xFFFFFF := by
  simp only [ofTempo, bind, bind_ok_iff, ensure_ok_iff, Bool.and_eq_true, decide_eq_true_eq]
  constructor
  · rintro ⟨_, _, within, _⟩
    exact within
  · intro within
    have short : (Bytes.word 3 microseconds).length < 0x10000000 := by rw [Bytes.length_word]; decide
    obtain ⟨message, made⟩ := exists_ofPayload_iff.mpr ⟨(by decide : MetaKind.tempo.toNat < 0x80), short⟩
    exact ⟨message, (), within, made⟩

theorem tempo?_ofTempo {microseconds : Nat} (made : ofTempo microseconds = .ok message) :
    message.tempo? = some microseconds ∧ 1 ≤ microseconds ∧ microseconds ≤ 0xFFFFFF := by
  have within := exists_ofTempo_iff.mp ⟨message, made⟩
  simp only [ofTempo, bind, bind_ok_iff] at made
  obtain ⟨_, _, made⟩ := made
  have spelled := Bytes.bigEndian_word 3 microseconds
  rw [Nat.mod_eq_of_lt (Nat.lt_of_le_of_lt within.2 (by decide))] at spelled
  refine ⟨?_, within⟩
  rw [tempo?, payloadOf?_ofPayload made]
  exact congrArg some spelled

theorem exists_ofTimeSignature_iff {signature : TimeSignature} :
    (∃ message, ofTimeSignature signature = .ok message) ↔ signature.denominator.toNat.isPowerOfTwo := by
  rw [← TimeSignature.exists_exponent?_iff]
  rw [ofTimeSignature]
  cases signature.exponent? with
  | none => simp
  | some exponent =>
    have short (a b c d : UInt8) : [a, b, c, d].length < 0x10000000 := by simp
    exact iff_of_true (exists_ofPayload_iff.mpr ⟨by decide, short _ _ _ _⟩) ⟨exponent, rfl⟩

theorem timeSignature?_ofTimeSignature {signature : TimeSignature} (made : ofTimeSignature signature = .ok message) :
    message.timeSignature? = some signature := by
  rw [ofTimeSignature] at made
  cases found : signature.exponent? with
  | none => simp [found] at made
  | some exponent =>
    simp only [found] at made
    have power := TimeSignature.exponent?_eq_some_iff.mp found
    have small := TimeSignature.exponent_lt power
    have kept : (UInt8.ofNat exponent).toNat = exponent := by
      rw [UInt8.toNat_ofNat']
      omega
    have denominator : UInt8.ofNat (Nat.pow 2 exponent) = signature.denominator := by rw [power, UInt8.ofNat_toNat]
    simp only [timeSignature?, payloadOf?_ofPayload made, kept, small, if_true, denominator]

/-- A meta message of any kind below 128 can be made with any payload that a length can be written for.
    It has that kind and that payload, and is made of its own bytes, too. A text of each of the nine kinds
    of text comes back as it was. Tempos from one microsecond up to what three bytes have room for can be
    set, and no others, and time signatures whose denominator is a power of two, and no others; the
    messages set just these. -/
theorem accessors_exact :
    (∀ (kind : UInt8) (payload : List UInt8), kind.toNat < 0x80 → payload.length < 0x10000000 →
      ∃ message, ofPayload kind payload = .ok message ∧ message.metaKind? = some kind ∧
        message.payload? = some payload ∧ ofBytes message.bytes = .ok message) ∧
    (∀ (kind : UInt8) (text : String), 1 ≤ kind.toNat → kind.toNat ≤ 9 → text.utf8ByteSize < 0x10000000 →
      ∃ message, ofText kind text = .ok message ∧ message.text? = some text) ∧
    (∀ microseconds, ((∃ message, ofTempo microseconds = .ok message) ↔ 1 ≤ microseconds ∧ microseconds ≤ 0xFFFFFF) ∧
      ∀ message, ofTempo microseconds = .ok message → message.tempo? = some microseconds) ∧
    ∀ signature, ((∃ message, ofTimeSignature signature = .ok message) ↔ signature.denominator.toNat.isPowerOfTwo) ∧
      ∀ message, ofTimeSignature signature = .ok message → message.timeSignature? = some signature := by
  refine ⟨fun kind payload low short => ?_, fun kind text least most short => ?_,
    fun microseconds => ⟨exists_ofTempo_iff, fun message made => (tempo?_ofTempo made).1⟩,
    fun signature => ⟨exists_ofTimeSignature_iff, fun message => timeSignature?_ofTimeSignature⟩⟩
  · obtain ⟨message, made⟩ := exists_ofPayload_iff.mpr ⟨low, short⟩
    obtain ⟨isKind, isPayload⟩ := payload?_ofPayload made
    exact ⟨message, made, isKind, isPayload, ofBytes_bytes (wellFormed_ofPayload made)⟩
  · obtain ⟨message, made⟩ := exists_ofText_iff.mpr ⟨least, most, short⟩
    exact ⟨message, made, text?_ofText made⟩

/-- A payload whose length takes two bytes, a text with characters of two and of four bytes, the slowest
    tempo and the greatest denominator. -/
theorem accessors_exact_greatest :
    (∃ message, ofPayload 0x7F (List.replicate 0x80 0xFF) = .ok message ∧ message.bytes.length = 0x84 ∧
      message.payload? = some (List.replicate 0x80 0xFF) ∧ ofBytes message.bytes = .ok message) ∧
    (∃ message, ofText 0x09 "Ä𝄞" = .ok message ∧ message.text? = some "Ä𝄞") ∧
    (∃ message, ofTempo 0xFFFFFF = .ok message ∧ message.tempo? = some 0xFFFFFF) ∧
    ∃ message, ofTimeSignature ⟨7, 128, 24, 8⟩ = .ok message ∧ message.timeSignature? = some ⟨7, 128, 24, 8⟩ := by
  obtain ⟨payloads, texts, tempos, signatures⟩ := accessors_exact
  have short : (List.replicate 0x80 (0xFF : UInt8)).length < 0x10000000 := by rw [List.length_replicate]; decide
  obtain ⟨message, made, _, isPayload, again⟩ := payloads 0x7F (List.replicate 0x80 0xFF) (by decide) short
  have length : (ofPayload 0x7F (List.replicate 0x80 0xFF)).toOption.map (·.bytes.length) = some 0x84 := by decide +kernel
  rw [made] at length
  obtain ⟨slowest, slow⟩ := (tempos 0xFFFFFF).1.mpr (by decide)
  obtain ⟨finest, fine⟩ := (signatures ⟨7, 128, 24, 8⟩).1.mpr ⟨7, rfl⟩
  exact ⟨⟨message, made, Option.some.inj length, isPayload, again⟩, texts 0x09 "Ä𝄞" (by decide) (by decide) (by decide),
    ⟨slowest, slow, (tempos _).2 slowest slow⟩, ⟨finest, fine, (signatures _).2 finest fine⟩⟩

end Message

end MidiFile
