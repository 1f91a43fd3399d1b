import Cheirizo.Clipboard.Descriptors
import Cheirizo.Clipboard.Sync

/-!
# What is hashed for an offer

`hash_mime_types` of `src/rdp/channels/clipboard/core/loop_detector.rs` writes a zero after every
name, and a list of names without zeros can be read back from what is hashed. `hash_formats` writes
nothing between the fields of a list: an identifier of four bytes, the name, the next identifier.
What is hashed says which bytes there are, and not where a name ends, or whether there is an empty
one. Two lists framed alike can be told apart; any two framings of one length have lists that
cannot.

## Main definitions

* `framing`, `framedLength` — where the names are, and how many bytes that makes
* `filled` — the list with a given framing whose bytes are all the same

## Main results

* `formatsPreimage_inj` — lists framed alike are told apart
* `mimeTypesPreimage_inj` — and lists of names without zeros
* `offers_distinguished_iff` — two framings are told apart if and only if they are one, or differ in
  length
-/

namespace Cheirizo

namespace Clipboard

open Unicode

/-- For each format, the length in bytes of its name, if it has one. -/
def framing (formats : List ClipboardFormat) : List (Option ℕ) :=
  formats.map fun format => format.name.map fun name => byteLen name.toList

/-- The number of bytes that are hashed. -/
def framedLength (frames : List (Option ℕ)) : ℕ := (frames.map fun frame => 4 + frame.getD 0).sum

/-! ### Lists framed alike -/

theorem natToLe_id_injective {a b : UInt32} (h : natToLe 4 a.toNat = natToLe 4 b.toNat) :
    a = b := by
  have ha := a.toNat_lt
  have hb := b.toNat_lt
  have hvalue := congrArg leToNat h
  rw [leToNat_natToLe, leToNat_natToLe] at hvalue
  rw [← UInt32.toNat_inj]
  omega

theorem encodeUtf8_toList_injective {a b : String} (h : encodeUtf8 a.toList = encodeUtf8 b.toList) :
    a = b :=
  String.toList_injective (encodeUtf8_injective h)

theorem length_formatBytes (format : ClipboardFormat) :
    (formatBytes format).length =
      4 + (format.name.map fun name => byteLen name.toList).getD 0 := by
  rw [formatBytes, List.length_append, length_natToLe]
  cases format.name <;> rfl

theorem length_formatsPreimage (formats : List ClipboardFormat) :
    (formatsPreimage formats).length = framedLength (framing formats) := by
  induction formats with
  | nil => rfl
  | cons format formats ih =>
    rw [formatsPreimage, List.flatMap_cons, List.length_append, length_formatBytes, framing,
      List.map_cons, framedLength, List.map_cons, List.sum_cons]
    exact congrArg _ ih

/-- A format is known by its bytes and by whether it has a name. -/
theorem formatBytes_inj {a b : ClipboardFormat} (hname : a.name.isSome = b.name.isSome)
    (h : formatBytes a = formatBytes b) : a = b := by
  obtain ⟨aId, aName⟩ := a
  obtain ⟨bId, bName⟩ := b
  have hlength : (natToLe 4 aId.toNat).length = (natToLe 4 bId.toNat).length := by
    rw [length_natToLe, length_natToLe]
  obtain ⟨hid, hbytes⟩ := List.append_inj h hlength
  have hids : aId = bId := natToLe_id_injective hid
  have hnames : aName = bName := by
    cases aName with
    | none =>
      cases bName with
      | none => rfl
      | some b => exact absurd hname Bool.false_ne_true
    | some a =>
      cases bName with
      | none => exact absurd hname.symm Bool.false_ne_true
      | some b => exact congrArg some (encodeUtf8_toList_injective hbytes)
  rw [hids, hnames]

/-- **Lists framed alike are told apart.** -/
theorem formatsPreimage_inj {xs ys : List ClipboardFormat} (hframing : framing xs = framing ys)
    (h : formatsPreimage xs = formatsPreimage ys) : xs = ys := by
  induction xs generalizing ys with
  | nil =>
    cases ys with
    | nil => rfl
    | cons y ys => exact absurd hframing (List.cons_ne_nil _ _).symm
  | cons x xs ih =>
    cases ys with
    | nil => exact absurd hframing (List.cons_ne_nil _ _)
    | cons y ys =>
      obtain ⟨hframe, hframes⟩ := List.cons.inj hframing
      have hlength : (formatBytes x).length = (formatBytes y).length := by
        rw [length_formatBytes, length_formatBytes]
        exact congrArg (fun frame => 4 + frame.getD 0) hframe
      obtain ⟨hbytes, hrest⟩ := List.append_inj h hlength
      have hname : x.name.isSome = y.name.isSome := by
        simpa using congrArg Option.isSome hframe
      rw [formatBytes_inj hname hbytes, ih hframes hrest]

/-! ### Lists framed differently -/

/-- The list with the given framing of which every byte is the letter A. -/
def filled (frames : List (Option ℕ)) : List ClipboardFormat :=
  frames.map fun frame => ⟨0x41414141, frame.map fun n => String.ofList (List.replicate n 'A')⟩

theorem encodeUtf8_replicate (n : ℕ) :
    encodeUtf8 (List.replicate n 'A') = List.replicate n 0x41 := by
  induction n with
  | zero => rfl
  | succ n ih => rw [List.replicate_succ, encodeUtf8_cons, ih]; rfl

theorem framing_filled (frames : List (Option ℕ)) : framing (filled frames) = frames := by
  have hframe : ∀ frame : Option ℕ,
      ((frame.map fun n => String.ofList (List.replicate n 'A')).map fun name =>
        byteLen name.toList) = frame := by
    rintro (_ | n)
    · rfl
    · rw [Option.map_some, Option.map_some, String.toList_ofList, byteLen, encodeUtf8_replicate,
        List.length_replicate]
  rw [framing, filled, List.map_map]
  exact (List.map_congr_left fun frame _ => hframe frame).trans (List.map_id frames)

theorem formatsPreimage_filled (frames : List (Option ℕ)) :
    formatsPreimage (filled frames) = List.replicate (framedLength frames) 0x41 := by
  induction frames with
  | nil => rfl
  | cons frame frames ih =>
    have hbytes : formatBytes
        ⟨0x41414141, frame.map fun n => String.ofList (List.replicate n 'A')⟩ =
          List.replicate (4 + frame.getD 0) 0x41 := by
      have hid : natToLe 4 (0x41414141 : UInt32).toNat = List.replicate 4 0x41 := by decide
      rw [formatBytes, hid]
      cases frame with
      | none => rfl
      | some n =>
        rw [Option.map_some, Option.getD_some, Option.getD_some, String.toList_ofList,
          encodeUtf8_replicate, List.replicate_append_replicate]
    show formatBytes _ ++ formatsPreimage (filled frames) =
      List.replicate (4 + frame.getD 0 + framedLength frames) 0x41
    rw [hbytes, ih, List.replicate_append_replicate]

/-! ### Lists of names -/

/-- What comes before the first zero, and what comes after it. -/
theorem append_zero_inj {xs ys xs' ys' : List UInt8} (hxs : 0 ∉ xs) (hys : 0 ∉ ys)
    (h : xs ++ 0 :: xs' = ys ++ 0 :: ys') : xs = ys ∧ xs' = ys' := by
  have htake : ∀ zs zs' : List UInt8, 0 ∉ zs → (zs ++ 0 :: zs').takeWhile (· ≠ 0) = zs := by
    intro zs zs' hzs
    rw [List.takeWhile_append_of_pos fun b hb => decide_eq_true (ne_of_mem_of_not_mem hb hzs),
      List.takeWhile_cons_of_neg (by decide), List.append_nil]
  have hfront : xs = ys := by rw [← htake xs xs' hxs, h, htake ys ys' hys]
  rw [hfront] at h
  exact ⟨hfront, List.cons.inj (List.append_cancel_left h) |>.2⟩

/-- **Lists of names without zeros are told apart.** -/
theorem mimeTypesPreimage_inj {xs ys : List String} (hxs : ∀ mime ∈ xs, '\x00' ∉ mime.toList)
    (hys : ∀ mime ∈ ys, '\x00' ∉ mime.toList) (h : mimeTypesPreimage xs = mimeTypesPreimage ys) :
    xs = ys := by
  have hzero : ∀ mime : String, '\x00' ∉ mime.toList → 0 ∉ encodeUtf8 mime.toList := by
    intro mime hmime
    rw [← List.count_eq_zero] at hmime ⊢
    exact (count_encodeUtf8 (a := '\x00') (by decide) mime.toList).trans hmime
  have hcons : ∀ (mime : String) (mimes : List String), mimeTypesPreimage (mime :: mimes) =
      encodeUtf8 mime.toList ++ 0 :: mimeTypesPreimage mimes := by
    intro mime mimes
    rw [mimeTypesPreimage, List.flatMap_cons, List.append_assoc]
    rfl
  induction xs generalizing ys with
  | nil =>
    cases ys with
    | nil => rfl
    | cons y ys =>
      rw [hcons] at h
      exact absurd h.symm (List.append_ne_nil_of_right_ne_nil _ (List.cons_ne_nil _ _))
  | cons x xs ih =>
    cases ys with
    | nil =>
      rw [hcons] at h
      exact absurd h (List.append_ne_nil_of_right_ne_nil _ (List.cons_ne_nil _ _))
    | cons y ys =>
      rw [hcons, hcons] at h
      obtain ⟨hx, hxs⟩ := List.forall_mem_cons.mp hxs
      obtain ⟨hy, hys⟩ := List.forall_mem_cons.mp hys
      obtain ⟨hname, hrest⟩ := append_zero_inj (hzero x hx) (hzero y hy) h
      rw [encodeUtf8_toList_injective hname, ih hxs hys hrest]

/-! ### Telling offers apart -/

/-- Different lists with these framings differ in what is hashed. -/
def Distinguished (frames frames' : List (Option ℕ)) : Prop :=
  ∀ xs ys, framing xs = frames → framing ys = frames' → xs ≠ ys →
    formatsPreimage xs ≠ formatsPreimage ys

/-- **Where names end is not hashed.** Two framings are told apart if and only if they are one and
the same, or take different numbers of bytes; lists of MIME types are always told apart. -/
theorem offers_distinguished_iff (frames frames' : List (Option ℕ)) :
    (Distinguished frames frames' ↔
      frames = frames' ∨ framedLength frames ≠ framedLength frames') ∧
    ∀ xs ys : List String, (∀ mime ∈ xs, '\x00' ∉ mime.toList) →
      (∀ mime ∈ ys, '\x00' ∉ mime.toList) → xs ≠ ys →
        mimeTypesPreimage xs ≠ mimeTypesPreimage ys := by
  refine ⟨⟨fun h => ?_, ?_⟩,
    fun xs ys hxs hys hne h => hne (mimeTypesPreimage_inj hxs hys h)⟩
  · by_contra hnot
    obtain ⟨hframes, hlength⟩ := not_or.mp hnot
    have hne : filled frames ≠ filled frames' := fun heq => hframes <| by
      rw [← framing_filled frames, heq, framing_filled]
    refine h _ _ (framing_filled frames) (framing_filled frames') hne ?_
    rw [formatsPreimage_filled, formatsPreimage_filled, not_not.mp hlength]
  · rintro hcases xs ys rfl rfl hne h
    obtain hframes | hlength := hcases
    · exact hne (formatsPreimage_inj hframes h)
    · rw [← length_formatsPreimage, ← length_formatsPreimage] at hlength
      exact hlength (congrArg List.length h)

/-- A name of four letters against a second identifier, and an empty name against none. -/
theorem formats_confused :
    formatsPreimage [.withName 1 "AAAA"] = formatsPreimage [.new 1, .new 0x41414141] ∧
      formatsPreimage [.withName 13 ""] = formatsPreimage [.new 13] ∧
      ¬ ∀ xs ys, xs ≠ ys → formatsPreimage xs ≠ formatsPreimage ys := by
  have hname : formatsPreimage [.withName 1 "AAAA"] =
      formatsPreimage [.new 1, .new 0x41414141] := by decide
  exact ⟨hname, by decide, fun h => h _ _ (by decide) hname⟩

end Clipboard

end Cheirizo
