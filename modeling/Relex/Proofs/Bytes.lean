import Relex.Proofs.Slices

/-! # Bytes of a text

Some searches look at the bytes of a text and not at its characters. All they ask about a byte is
which character of ASCII it stands for, and no byte of any other character stands for one
(`le_of_mem_encoding`). So they find what a search among the characters finds.
-/

namespace Relex.Text

/-- The bytes of a text in UTF-8. -/
def bytes (cs : List Char) : List UInt8 :=
  cs.flatMap String.utf8EncodeChar

@[simp] theorem bytes_nil : bytes [] = [] := rfl

@[simp] theorem bytes_cons (c : Char) (cs : List Char) :
    bytes (c :: cs) = String.utf8EncodeChar c ++ bytes cs := rfl

@[simp] theorem bytes_append (as bs : List Char) : bytes (as ++ bs) = bytes as ++ bytes bs :=
  List.flatMap_append

@[simp] theorem length_bytes (cs : List Char) : (bytes cs).length = byteLength cs := by
  induction cs with
  | nil => rfl
  | cons c cs ih => simp [ih]

/-- Whether a byte stands for a character of ASCII of some class. -/
def isAsciiByte (p : Char → Bool) (b : UInt8) : Bool :=
  b.toNat < 128 && p (Char.ofNat b.toNat)

theorem encoding_of_ascii {c : Char} (h : c.toNat < 128) :
    String.utf8EncodeChar c = [UInt8.ofNat c.toNat] := by
  have hle : c.val.toNat ≤ 127 := by
    have : c.toNat = c.val.toNat := rfl
    omega
  simp only [String.utf8EncodeChar, hle, if_true]
  rfl

theorem utf8Size_of_ascii {c : Char} (h : c.toNat < 128) : c.utf8Size = 1 := by
  have hlength := String.length_utf8EncodeChar c
  rw [encoding_of_ascii h] at hlength
  exact hlength.symm

theorem encoding_ne_nil (c : Char) : String.utf8EncodeChar c ≠ [] := by
  intro hnil
  have hlength := String.length_utf8EncodeChar c
  rw [hnil] at hlength
  exact absurd hlength (Nat.ne_of_lt c.utf8Size_pos)

/-- Only characters of ASCII have bytes of ASCII. -/
theorem le_of_mem_encoding {c : Char} (h : 128 ≤ c.toNat) :
    ∀ b ∈ String.utf8EncodeChar c, 128 ≤ b.toNat := by
  have hlt : ¬ c.val.toNat ≤ 127 := by
    have : c.toNat = c.val.toNat := rfl
    omega
  intro b hb
  simp only [String.utf8EncodeChar, hlt, if_false] at hb
  split at hb
  · simp only [List.mem_cons, List.not_mem_nil, or_false] at hb
    rcases hb with rfl | rfl <;> simp only [UInt8.toNat_ofNat'] <;> omega
  split at hb
  · simp only [List.mem_cons, List.not_mem_nil, or_false] at hb
    rcases hb with rfl | rfl | rfl <;> simp only [UInt8.toNat_ofNat'] <;> omega
  · simp only [List.mem_cons, List.not_mem_nil, or_false] at hb
    rcases hb with rfl | rfl | rfl | rfl <;> simp only [UInt8.toNat_ofNat'] <;> omega

theorem isAsciiByte_ofNat (p : Char → Bool) {c : Char} (h : c.toNat < 128) :
    isAsciiByte p (UInt8.ofNat c.toNat) = p c := by
  have hvalue : (UInt8.ofNat c.toNat).toNat = c.toNat := by
    rw [UInt8.toNat_ofNat']
    omega
  simp [isAsciiByte, hvalue, h, Char.ofNat_toNat]

theorem isAsciiByte_of_le (p : Char → Bool) {b : UInt8} (h : 128 ≤ b.toNat) :
    isAsciiByte p b = false := by
  simp [isAsciiByte, Nat.not_lt.mpr h]

theorem toNat_toUInt8 (c : Char) : c.toUInt8.toNat = c.toNat % 256 :=
  UInt32.toNat_toUInt8 c.val

/-- The first byte of a character tells which character of ASCII it is, if any. The bytes behind the
    first are none of ASCII. -/
theorem exists_encoding (c : Char) :
    ∃ b more, String.utf8EncodeChar c = b :: more ∧ (∀ b ∈ more, 128 ≤ b.toNat) ∧
      ∀ d : Char, d.toNat < 128 → (b = d.toUInt8 ↔ c = d) := by
  by_cases hc : c.toNat < 128
  · refine ⟨UInt8.ofNat c.toNat, [], encoding_of_ascii hc, List.forall_mem_nil _, fun d hd => ?_⟩
    refine ⟨fun hbyte => ?_, fun hsame => by subst hsame; rfl⟩
    have hvalue := congrArg UInt8.toNat hbyte
    rw [UInt8.toNat_ofNat', toNat_toUInt8] at hvalue
    exact Char.toNat_inj.mp (by omega)
  · obtain ⟨b, more, hbytes⟩ := List.exists_cons_of_ne_nil (encoding_ne_nil c)
    have hle := le_of_mem_encoding (Nat.not_lt.mp hc)
    rw [hbytes] at hle
    obtain ⟨hfirst, hmore⟩ := List.forall_mem_cons.mp hle
    refine ⟨b, more, hbytes, hmore, fun d hd => ?_⟩
    refine ⟨fun hbyte => ?_, fun hsame => absurd hd (hsame ▸ hc)⟩
    rw [hbyte, toNat_toUInt8] at hfirst
    omega

theorem head?_bytes_eq_iff {d : Char} (hd : d.toNat < 128) (cs : List Char) :
    (bytes cs).head? = some d.toUInt8 ↔ begins [d] cs = true := by
  cases cs with
  | nil => simp [begins]
  | cons c cs =>
      obtain ⟨b, more, hbytes, -, hascii⟩ := exists_encoding c
      have hfirst : (bytes (c :: cs)).head? = some b := by simp [hbytes]
      have hbegins : begins [d] (c :: cs) = true ↔ d = c := by simp [begins, List.isPrefixOf]
      rw [hfirst, hbegins, Option.some_inj, hascii d hd, eq_comm]

theorem drop_bytes {text rest : List Char} {offset : Nat} (h : Ahead text offset rest) :
    (bytes text).drop offset = bytes rest := by
  obtain ⟨before, rfl, rfl⟩ := h
  rw [bytes_append, ← length_bytes, List.drop_left]

/-! ## Runs -/

/-- How many bytes at the front of a text stand for characters of ASCII of a class. -/
def byteRun (p : Char → Bool) (cs : List Char) : Nat :=
  ((bytes cs).takeWhile (isAsciiByte p)).length

section Run

variable {p : Char → Bool} (hp : ∀ c, p c = true → c.toNat < 128)
include hp

theorem byteRun_eq (cs : List Char) : byteRun p cs = runLength p cs := by
  unfold byteRun
  induction cs with
  | nil => rfl
  | cons c cs ih =>
      by_cases hc : c.toNat < 128
      · rw [bytes_cons, encoding_of_ascii hc, List.singleton_append, List.takeWhile_cons,
          isAsciiByte_ofNat p hc]
        cases hclass : p c <;> simp_all [runLength]
      · have hclass : p c = false := by
          cases hclass : p c with
          | false => rfl
          | true => exact absurd (hp c hclass) hc
        obtain ⟨b, bs, hbytes⟩ := List.exists_cons_of_ne_nil (encoding_ne_nil c)
        have hb : isAsciiByte p b = false := by
          apply isAsciiByte_of_le
          exact le_of_mem_encoding (Nat.not_lt.mp hc) b (by simp [hbytes])
        simp [bytes_cons, hbytes, hb, runLength, hclass]

theorem byteLength_take_runLength (cs : List Char) :
    byteLength (cs.take (runLength p cs)) = runLength p cs := by
  induction cs with
  | nil => rfl
  | cons c cs ih =>
      cases hclass : p c with
      | false => simp [runLength, hclass]
      | true =>
          have hrun : runLength p (c :: cs) = runLength p cs + 1 := by simp [runLength, hclass]
          rw [hrun, List.take_succ_cons, byteLength_cons, ih, utf8Size_of_ascii (hp c hclass)]
          omega

end Run

/-- What follows a text, seen from its first byte. -/
theorem all_head?_bytes {p : Char → Bool} (hp : ∀ c, p c = true → c.toNat < 128) (cs : List Char) :
    (bytes cs).head?.all (isAsciiByte p) = (cs.isEmpty || headIs p cs) := by
  cases cs with
  | nil => rfl
  | cons c cs =>
      obtain ⟨b, more, hbytes⟩ := List.exists_cons_of_ne_nil (encoding_ne_nil c)
      have hb : isAsciiByte p b = p c := by
        by_cases hc : c.toNat < 128
        · rw [encoding_of_ascii hc] at hbytes
          rw [← (List.cons_eq_cons.mp hbytes).1, isAsciiByte_ofNat p hc]
        · have hle := le_of_mem_encoding (Nat.not_lt.mp hc) b (by simp [hbytes])
          rw [isAsciiByte_of_le p hle]
          exact (Bool.eq_false_iff.mpr fun hclass => hc (hp c hclass)).symm
      simp [hbytes, hb, headIs]

/-! ## Comparing -/

/-- A byte with a capital letter of ASCII made small. -/
def lowerByte (b : UInt8) : UInt8 :=
  if 65 ≤ b.toNat ∧ b.toNat ≤ 90 then b + 32 else b

theorem lowerByte_of_le {b : UInt8} (h : 128 ≤ b.toNat) : lowerByte b = b := by
  have hcapital : ¬ (65 ≤ b.toNat ∧ b.toNat ≤ 90) := by omega
  simp [lowerByte, hcapital]

theorem toLower_of_le {c : Char} (h : 128 ≤ c.toNat) : c.toLower = c := by
  have hcapital : ¬ (c.val ≥ 'A'.val ∧ c.val ≤ 'Z'.val) := by
    rintro ⟨-, hle⟩
    rw [UInt32.le_iff_toNat_le] at hle
    exact absurd (Nat.le_trans h hle) (by decide)
  exact dif_neg hcapital

theorem encoding_toLower_of_ascii : ∀ n < 128,
    String.utf8EncodeChar (Char.ofNat n).toLower =
      (String.utf8EncodeChar (Char.ofNat n)).map lowerByte := by
  decide

theorem bytes_map_toLower (cs : List Char) :
    bytes (cs.map Char.toLower) = (bytes cs).map lowerByte := by
  induction cs with
  | nil => rfl
  | cons c cs ih =>
      have hfirst : String.utf8EncodeChar c.toLower = (String.utf8EncodeChar c).map lowerByte := by
        by_cases hc : c.toNat < 128
        · have := encoding_toLower_of_ascii c.toNat hc
          rwa [Char.ofNat_toNat] at this
        · have hsame : ∀ b ∈ String.utf8EncodeChar c, lowerByte b = b := fun b hb =>
            lowerByte_of_le (le_of_mem_encoding (Nat.not_lt.mp hc) b hb)
          rw [toLower_of_le (Nat.not_lt.mp hc), List.map_congr_left hsame, List.map_id']
      rw [List.map_cons, bytes_cons, bytes_cons, List.map_append, ih, hfirst]

/-- The case of a letter does not change how many bytes it takes. -/
theorem byteLength_map_toLower (cs : List Char) :
    byteLength (cs.map Char.toLower) = byteLength cs := by
  rw [← length_bytes, bytes_map_toLower, List.length_map, length_bytes]

theorem encoding_append_inj {a b : Char} {as bs : List UInt8}
    (h : String.utf8EncodeChar a ++ as = String.utf8EncodeChar b ++ bs) : a = b := by
  have hdecode (c : Char) (rest : List UInt8) :
      (String.utf8EncodeChar c ++ rest).toByteArray.utf8DecodeChar? 0 = some c := by
    rw [List.toByteArray_append]
    exact ByteArray.utf8DecodeChar?_utf8EncodeChar_append
  exact Option.some.inj ((hdecode a as).symm.trans (h ▸ hdecode b bs))

/-- Which characters a text begins with can be read off its bytes. -/
theorem prefix_of_bytes {as bs : List Char} (h : bytes as <+: bytes bs) : as <+: bs := by
  induction as generalizing bs with
  | nil => exact List.nil_prefix
  | cons a as ih =>
      obtain ⟨rest, hrest⟩ := h
      cases bs with
      | nil =>
          rw [bytes_cons, bytes_nil, List.append_assoc, List.append_eq_nil_iff] at hrest
          exact absurd hrest.1 (encoding_ne_nil a)
      | cons b bs =>
          rw [bytes_cons, bytes_cons, List.append_assoc] at hrest
          obtain rfl := encoding_append_inj hrest
          exact List.cons_prefix_cons.mpr ⟨rfl, ih ⟨rest, List.append_cancel_left hrest⟩⟩

theorem bytes_prefix {as bs : List Char} (h : as <+: bs) : bytes as <+: bytes bs := by
  obtain ⟨rest, rfl⟩ := h
  exact ⟨bytes rest, (bytes_append as rest).symm⟩

/-- Comparing as many bytes as a word has, whatever the case, compares as many characters. -/
theorem lowerBytes_take_eq_iff (word cs : List Char) :
    ((bytes cs).take (bytes word).length).map lowerByte = (bytes word).map lowerByte ↔
      equalIgnoringCase word (cs.take word.length) = true := by
  have hlength : (bytes word).length = (bytes (word.map Char.toLower)).length := by
    rw [bytes_map_toLower, List.length_map]
  have hwords : equalIgnoringCase word (cs.take word.length) = true ↔
      word.map Char.toLower <+: cs.map Char.toLower := by
    rw [equalIgnoringCase, beq_iff_eq, List.map_take, List.prefix_iff_eq_take, List.length_map]
  rw [hwords, List.map_take, ← bytes_map_toLower, ← bytes_map_toLower, hlength, eq_comm,
    ← List.prefix_iff_eq_take]
  exact ⟨prefix_of_bytes, bytes_prefix⟩

end Relex.Text
