import Mathlib.Order.Bounds.Defs
import Relex.Text.Offset

/-! # Parts of a text between byte offsets

An offset is a boundary when it lies between two characters. `Spans` says where a part of a text
stands; regions are cut out exactly along it (`region_eq_ok_iff`), and between two boundaries in
order there is always a part (`spans_between`). The first offset of a region at which something stands
cuts the region in two (`Spans.exists_front_of_isLeast`).
-/

namespace Relex.Text

/-- The offset lies between two characters of the text, or at one of its ends. -/
def Boundary (text : List Char) (offset : Nat) : Prop :=
  ∃ before after, text = before ++ after ∧ byteLength before = offset

/-- The part of the text from the first offset to the second. -/
def Spans (text part : List Char) (start stop : Nat) : Prop :=
  ∃ before after, text = before ++ part ++ after ∧ byteLength before = start ∧
    byteLength (before ++ part) = stop

theorem boundary_iff (text : List Char) (offset : Nat) :
    Boundary text offset ↔ (splitAt? offset text).isSome := by
  constructor
  · rintro ⟨before, after, rfl, rfl⟩
    rw [splitAt?_byteLength]
    rfl
  · intro h
    obtain ⟨⟨before, after⟩, hsplit⟩ := Option.isSome_iff_exists.mp h
    exact ⟨before, after, splitAt?_eq_some_iff.mp hsplit⟩

instance (text : List Char) (offset : Nat) : Decidable (Boundary text offset) :=
  decidable_of_iff _ (boundary_iff text offset).symm

theorem byteLength_pos (c : Char) (cs : List Char) : 0 < byteLength (c :: cs) := by
  have := c.utf8Size_pos
  simp only [byteLength_cons]
  omega

theorem byteLength_eq_zero {cs : List Char} (h : byteLength cs = 0) : cs = [] := by
  cases cs with
  | nil => rfl
  | cons c cs =>
      have := byteLength_pos c cs
      omega

theorem size_utf8Encode (cs : List Char) : cs.utf8Encode.size = byteLength cs := by
  induction cs with
  | nil => rfl
  | cons c cs ih =>
      rw [List.utf8Encode_cons, ByteArray.size_append, ih, List.utf8Encode_singleton,
        List.size_toByteArray, String.length_utf8EncodeChar, byteLength_cons]

theorem byteLength_toList (source : String) : byteLength source.toList = source.utf8ByteSize := by
  rw [← size_utf8Encode, String.utf8Encode_toList, String.size_toByteArray]

/-- Of two front parts of one text, the one of fewer bytes is a front part of the other. -/
theorem front_of_le {before before' after after' : List Char}
    (h : before ++ after = before' ++ after') (hle : byteLength before ≤ byteLength before') :
    ∃ part, before' = before ++ part ∧ after = part ++ after' := by
  rcases List.append_eq_append_iff.mp h with ⟨part, rfl, rfl⟩ | ⟨part, rfl, rfl⟩
  · exact ⟨part, rfl, rfl⟩
  · have hnil : part = [] := byteLength_eq_zero (by simp only [byteLength_append] at hle; omega)
    exact ⟨[], by simp [hnil], by simp [hnil]⟩

/-- Two front parts of one text with the same number of bytes are the same. -/
theorem front_eq_of_byteLength_eq {before before' after after' : List Char}
    (h : before ++ after = before' ++ after') (hlength : byteLength before = byteLength before') :
    before = before' := by
  obtain ⟨part, rfl, -⟩ := front_of_le h (Nat.le_of_eq hlength)
  have hnil : part = [] := byteLength_eq_zero (by rw [byteLength_append] at hlength; omega)
  rw [hnil, List.append_nil]

/-- Between two boundaries in order there is a part of the text. -/
theorem spans_between {text : List Char} {start stop : Nat} (hstart : Boundary text start)
    (hstop : Boundary text stop) (hle : start ≤ stop) : ∃ part, Spans text part start stop := by
  obtain ⟨before, after, rfl, rfl⟩ := hstart
  obtain ⟨upTo, behind, heq, rfl⟩ := hstop
  obtain ⟨part, rfl, rfl⟩ := front_of_le heq hle
  exact ⟨part, before, behind, by simp, rfl, rfl⟩

/-- All of a source. -/
theorem spans_whole (source : String) :
    Spans source.toList source.toList 0 source.utf8ByteSize :=
  ⟨[], [], by simp, rfl, byteLength_toList source⟩

theorem region_eq_ok_iff {text part : List Char} {start stop : Nat} :
    region text start stop = .ok part ↔ Spans text part start stop := by
  constructor
  · intro h
    unfold region at h
    cases hstop : splitAt? stop text with
    | none => simp [hstop] at h
    | some cut =>
        obtain ⟨upTo, after⟩ := cut
        cases hstart : splitAt? start upTo with
        | none => simp [hstop, hstart] at h
        | some cut =>
            obtain ⟨before, middle⟩ := cut
            simp only [hstop, hstart, Except.ok.injEq] at h
            subst h
            obtain ⟨rfl, rfl⟩ := splitAt?_eq_some_iff.mp hstart
            obtain ⟨rfl, rfl⟩ := splitAt?_eq_some_iff.mp hstop
            exact ⟨before, after, rfl, rfl, rfl⟩
  · rintro ⟨before, after, rfl, rfl, rfl⟩
    simp only [region, splitAt?_byteLength]

namespace Spans

variable {text part front behind : List Char} {start stop : Nat}

theorem stop_eq (h : Spans text part start stop) : stop = start + byteLength part := by
  obtain ⟨before, after, rfl, rfl, rfl⟩ := h
  simp

theorem boundary_start (h : Spans text part start stop) : Boundary text start := by
  obtain ⟨before, after, rfl, rfl, -⟩ := h
  exact ⟨before, part ++ after, by simp, rfl⟩

theorem boundary_stop (h : Spans text part start stop) : Boundary text stop := by
  obtain ⟨before, after, rfl, -, rfl⟩ := h
  exact ⟨before ++ part, after, rfl, rfl⟩

theorem stop_le (h : Spans text part start stop) : stop ≤ byteLength text := by
  obtain ⟨before, after, rfl, -, rfl⟩ := h
  simp

theorem unique {part' : List Char} (h : Spans text part start stop) (h' : Spans text part' start stop) :
    part = part' :=
  Except.ok.inj ((region_eq_ok_iff.mpr h).symm.trans (region_eq_ok_iff.mpr h'))

theorem append {middle : Nat} (h : Spans text front start middle)
    (hbehind : Spans text behind middle stop) : Spans text (front ++ behind) start stop := by
  obtain ⟨before, after, rfl, rfl, rfl⟩ := h
  obtain ⟨before', after', heq, hmiddle, rfl⟩ := hbehind
  -- Two parts that end at one offset of one text are the same.
  obtain ⟨gap, rfl, hgap⟩ :=
    front_of_le (heq.trans (List.append_assoc before' behind after')) (Nat.le_of_eq hmiddle.symm)
  have hnil : gap = [] := by
    apply byteLength_eq_zero
    rw [byteLength_append] at hmiddle
    omega
  subst hnil
  exact ⟨before, after', by simp_all, rfl, by simp⟩

/-- Of two parts that end together, the one that starts later is the end of the other. -/
theorem exists_front {middle : Nat} (h : Spans text part start stop)
    (hbehind : Spans text behind middle stop) (hle : start ≤ middle) :
    ∃ front, part = front ++ behind ∧ middle = start + byteLength front := by
  obtain ⟨front, hfront⟩ := spans_between h.boundary_start hbehind.boundary_start hle
  exact ⟨front, h.unique (hfront.append hbehind), hfront.stop_eq⟩

theorem of_append_left (h : Spans text (front ++ behind) start stop) :
    Spans text front start (start + byteLength front) := by
  obtain ⟨before, after, rfl, rfl, -⟩ := h
  exact ⟨before, behind ++ after, by simp, rfl, by simp⟩

theorem of_append_right (h : Spans text (front ++ behind) start stop) :
    Spans text behind (start + byteLength front) stop := by
  obtain ⟨before, after, rfl, rfl, rfl⟩ := h
  exact ⟨before ++ front, after, by simp, by simp, by simp⟩

theorem drop (h : Spans text part start stop) (k : Nat) :
    Spans text (part.drop k) (start + byteLength (part.take k)) stop := by
  rw [← List.take_append_drop k part] at h
  exact h.of_append_right

/-- What stands first at an offset of the region does not stand anywhere in the text in front of
    it. -/
theorem exists_front_of_isLeast {Here : List Char → Prop} {reach : Nat} (h : Spans text part start stop)
    (hleast : IsLeast {place | start ≤ place ∧ ∃ behind, Spans text behind place stop ∧ Here behind}
      reach) :
    ∃ front behind, part = front ++ behind ∧ reach = start + byteLength front ∧ Here behind ∧
      ∀ k < front.length, ¬Here ((front ++ behind).drop k) := by
  obtain ⟨⟨hle, behind, hbehind, hhere⟩, hfirst⟩ := hleast
  obtain ⟨front, rfl, rfl⟩ := h.exists_front hbehind hle
  refine ⟨front, behind, rfl, rfl, hhere, ?_⟩
  intro k hk hearlier
  have hbound := hfirst ⟨Nat.le_add_right _ _, _, h.drop k, hearlier⟩
  rw [List.take_append_of_le_length (Nat.le_of_lt hk)] at hbound
  obtain ⟨c, later, hlater⟩ := List.exists_cons_of_ne_nil fun hnil =>
    Nat.not_le_of_lt hk (List.drop_eq_nil_iff.mp hnil)
  have hlength : byteLength front = byteLength (front.take k) + byteLength (front.drop k) := by
    rw [← byteLength_append, List.take_append_drop]
  have hpos := byteLength_pos c later
  rw [hlater] at hlength
  omega

end Spans

end Relex.Text
