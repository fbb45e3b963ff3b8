/-!
# Stretches of a text

A stretch of a text is given by two numbers of bytes. It can be cut out of the text only if it does not
end before it begins and both of its ends are between characters, each of which has one to four bytes.
-/

namespace UsageAudit.Text

/-- The number of bytes of a text in UTF-8. -/
def size (text : List Char) : Nat := (String.ofList text).utf8ByteSize

/-- Nothing has no bytes. -/
@[simp]
theorem size_nil : size [] = 0 := rfl

/-- The bytes of two texts, one after the other. -/
@[simp]
theorem size_append (text other : List Char) : size (text ++ other) = size text + size other := by
  rw [size, String.ofList_append, String.utf8ByteSize_append]
  rfl

/-- The bytes of the first character are added to those of the others. -/
@[simp]
theorem size_cons (c : Char) (rest : List Char) : size (c :: rest) = c.utf8Size + size rest := by
  have hfirst : size [c] = c.utf8Size := String.utf8ByteSize_singleton
  rw [← List.singleton_append, size_append, hfirst]

/-- A stretch of a text, by the numbers of bytes in front of its ends. -/
structure Span where
  start : Nat
  stop : Nat
  deriving DecidableEq, Repr

namespace Span

/-- Whether a stretch lies in a text: it does not end before it begins, and both of its ends are
between characters of the text. -/
structure Fits (span : Span) (text : List Char) : Prop where
  start_le_stop : span.start ≤ span.stop
  start_isValid : (String.Pos.Raw.mk span.start).IsValid (String.ofList text)
  stop_isValid : (String.Pos.Raw.mk span.stop).IsValid (String.ofList text)

instance (span : Span) (text : List Char) : Decidable (span.Fits text) :=
  decidable_of_iff
    (span.start ≤ span.stop ∧ (String.Pos.Raw.mk span.start).IsValid (String.ofList text) ∧
      (String.Pos.Raw.mk span.stop).IsValid (String.ofList text))
    ⟨fun h => ⟨h.1, h.2.1, h.2.2⟩, fun h => ⟨h.1, h.2, h.3⟩⟩

/-- No stretch ends inside a character. -/
example : ¬Fits ⟨0, 1⟩ ['ß'] ∧ Fits ⟨0, 2⟩ ['ß'] := by decide

/-- What is cut out of a text at a stretch; none if the stretch does not lie in the text. -/
def cut? (span : Span) (text : List Char) : Option (List Char) :=
  if h : span.Fits text then
    some ((String.ofList text).slice ⟨⟨span.start⟩, h.start_isValid⟩ ⟨⟨span.stop⟩, h.stop_isValid⟩
      h.start_le_stop).copy.toList
  else none

/-- Where something is cut out, the stretch lies in the text. -/
theorem fits_of_cut? {span : Span} {text part : List Char} (h : span.cut? text = some part) :
    span.Fits text := by
  unfold cut? at h
  split at h
  · assumption
  · cases h

section Append

variable {text before part behind : List Char}

/-- Behind a text that another one begins with there is a place between characters. -/
theorem isValid_size (htext : text = before ++ behind) :
    (String.Pos.Raw.mk (size before)).IsValid (String.ofList text) := by
  rw [String.Pos.Raw.isValid_iff_exists_append, htext]
  exact ⟨String.ofList before, String.ofList behind, String.ofList_append, rfl⟩

/-- A text in the middle of another one is cut out where it stands. -/
theorem cut?_append (htext : text = before ++ part ++ behind) :
    cut? ⟨size before, size before + size part⟩ text = some part := by
  have hfits : Fits ⟨size before, size before + size part⟩ text := by
    refine ⟨Nat.le_add_right .., isValid_size (htext.trans (List.append_assoc ..)), ?_⟩
    rw [← size_append]
    exact isValid_size htext
  have hwhole : String.ofList text =
      String.ofList before ++ String.ofList part ++ String.ofList behind := by
    rw [htext, String.ofList_append, String.ofList_append]
  let start : (String.ofList text).Pos := ⟨⟨size before⟩, hfits.start_isValid⟩
  let stop : (String.ofList text).Pos := ⟨⟨size before + size part⟩, hfits.stop_isValid⟩
  have hstart : start.Splits (String.ofList before) (String.ofList part ++ String.ofList behind) :=
    ⟨hwhole.trans (String.append_assoc ..), rfl⟩
  have hstop : stop.Splits (String.ofList before ++ String.ofList part) (String.ofList behind) :=
    ⟨hwhole, by simp [stop, size, String.Pos.Raw.ext_iff]⟩
  obtain ⟨_, hslice⟩ := String.copy_slice_eq_iff_splits.mpr ⟨_, _, hstart, hstop⟩
  rw [cut?, dif_pos hfits, hslice, String.toList_ofList]

end Append

end Span

end UsageAudit.Text
