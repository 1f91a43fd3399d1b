import Cheirizo.Clipboard.Rtf
import Cheirizo.Lib.Nesting

/-!
# The braces of a document

`validate_rtf` of `src/rdp/channels/clipboard/core/formats.rs` counts braces in a number of 32 bits,
and counts those that a backslash escapes as well. So it refuses documents whose groups are
balanced, and accepts others whose groups are not; `text_to_rtf` escapes every brace of a text, and
what it writes is refused if the braces of the text are not balanced among themselves.

## Main definitions

* `FormatConverter.validateRtf`
* `Climbs` — what the count of all braces demands
* `EscapesFit` — escaped braces that cancel out what the groups leave open

## Main results

* `validateRtf_eq_ok_iff` — what is accepted
* `climbs_iff` — what that says of the escaped braces
* `validation_exact_iff` — the documents for which that is right, and the texts
-/

namespace Cheirizo

namespace Clipboard

open Unicode Nesting

/-! ### The check -/

/-- How a document has to begin. -/
def rtfSignature : List UInt8 := "\x7b\\rtf".toList.map fun c => UInt8.ofNat c.toNat

/-- The depth after a text, unless it was negative on the way. -/
def matchBraces : Int32 → List UInt8 → Except ConversionError Int32
  | depth, [] => .ok depth
  | depth, b :: bs =>
    let depth := if b = 0x7B then depth + 1 else if b = 0x7D then depth - 1 else depth
    if depth < 0 then .error (.formatConversion "Invalid RTF: unmatched closing brace")
    else matchBraces depth bs

/-- Braces are counted. An escaped one counts as well. -/
def FormatConverter.validateRtf (converter : FormatConverter) (data : List UInt8) :
    Except ConversionError (List UInt8) :=
  if converter.maxSize < data.length then
    .error (.dataSizeExceeded data.length converter.maxSize)
  else if ¬ rtfSignature <+: data then
    .error (.formatConversion "Invalid RTF: must start with \x7b\\rtf")
  else
    match matchBraces 0 data with
    | .error e => .error e
    | .ok depth =>
      if depth ≠ 0 then .error (.formatConversion "Invalid RTF: unmatched braces") else .ok data

/-! ### Tokens -/

/-- What a byte is to the nesting. -/
def byteToken (b : UInt8) : Token :=
  if b = 0x7B then .opening else if b = 0x7D then .closing else if b = 0x5C then .escape else .other

/-- What a character is to the nesting. -/
def charToken (c : Char) : Token :=
  if c = '\x7b' then .opening else if c = '\x7d' then .closing
  else if c = '\\' then .escape else .other

/-- The braces that no backslash escapes are balanced. -/
def GroupsBalanced (data : List UInt8) : Prop := Balanced (unescaped false (data.map byteToken))

instance (data : List UInt8) : Decidable (GroupsBalanced data) :=
  inferInstanceAs (Decidable (Balanced _))

/-- All braces are balanced, those that are escaped too, and the depth has fewer than 32 bits. -/
def Climbs (data : List UInt8) : Prop :=
  Within 0 (2 ^ 31) 0 (data.map byteToken) ∧ level (data.map byteToken) = 0

/-- The groups that are open after some tokens, less those closed too early. -/
def openGroups (ts : List Token) : ℤ := level (unescaped false ts)

/-- The same of the braces that are escaped. -/
def openEscaped (ts : List Token) : ℤ := level (escaped false ts)

/-- At every place, the escaped closing braces exceed the escaped opening ones by no more than the
groups that are open there, and fewer than `2 ^ 31` braces are open in all; in the end the two kinds
cancel out. -/
structure EscapesFit (data : List UInt8) : Prop where
  depth : ∀ front, front <+: data.map byteToken →
    -openGroups front ≤ openEscaped front ∧ openEscaped front < 2 ^ 31 - openGroups front
  closed : openEscaped (data.map byteToken) = -openGroups (data.map byteToken)

/-! ### What is accepted -/

theorem toInt_succ (depth : Int32) :
    (depth + 1).toInt = if depth.toInt = 2 ^ 31 - 1 then -2 ^ 31 else depth.toInt + 1 := by
  have hlt := depth.toInt_lt
  have hle := depth.le_toInt
  have hone : (1 : Int32).toInt = 1 := rfl
  rw [Int32.toInt_add, hone, Int.bmod_def]
  split_ifs <;> omega

theorem toInt_pred (depth : Int32) :
    (depth - 1).toInt = if depth.toInt = -2 ^ 31 then 2 ^ 31 - 1 else depth.toInt - 1 := by
  have hlt := depth.toInt_lt
  have hle := depth.le_toInt
  have hone : (1 : Int32).toInt = 1 := rfl
  rw [Int32.toInt_sub, hone, Int.bmod_def]
  split_ifs <;> omega

/-- The depth after a byte. -/
def nextDepth (depth : Int32) (b : UInt8) : Int32 :=
  if b = 0x7B then depth + 1 else if b = 0x7D then depth - 1 else depth

theorem matchBraces_cons (depth : Int32) (b : UInt8) (bs : List UInt8) :
    matchBraces depth (b :: bs) =
      if nextDepth depth b < 0 then
        .error (.formatConversion "Invalid RTF: unmatched closing brace")
      else matchBraces (nextDepth depth b) bs := rfl

/-- A depth that is not negative moves with the level, or becomes negative: below zero, or beyond
the greatest depth. -/
theorem nextDepth_cases {depth : Int32} (h : 0 ≤ depth.toInt) (b : UInt8) :
    (¬ nextDepth depth b < 0 ∧ (nextDepth depth b).toInt = depth.toInt + (byteToken b).step ∧
        0 ≤ depth.toInt + (byteToken b).step ∧ depth.toInt + (byteToken b).step < 2 ^ 31) ∨
      nextDepth depth b < 0 ∧
        ¬ (0 ≤ depth.toInt + (byteToken b).step ∧ depth.toInt + (byteToken b).step < 2 ^ 31) := by
  have hlt := depth.toInt_lt
  have hzero : (0 : Int32).toInt = 0 := rfl
  rw [Int32.lt_iff_toInt_lt, hzero, nextDepth, byteToken]
  by_cases hopen : b = 0x7B
  · rw [if_pos hopen, if_pos hopen, toInt_succ, Token.step]
    split_ifs <;> omega
  · rw [if_neg hopen, if_neg hopen]
    by_cases hclose : b = 0x7D
    · rw [if_pos hclose, if_pos hclose, toInt_pred, Token.step]
      split_ifs <;> omega
    · rw [if_neg hclose, if_neg hclose]
      split_ifs <;> rw [Token.step] <;> omega

/-- The depth of the check is the level, as long as it fits. -/
theorem matchBraces_eq_ok_iff {depth : Int32} (h : 0 ≤ depth.toInt) (data : List UInt8) :
    matchBraces depth data = .ok 0 ↔ Within 0 (2 ^ 31) depth.toInt (data.map byteToken) ∧
      depth.toInt + level (data.map byteToken) = 0 := by
  induction data generalizing depth with
  | nil =>
    have hlt := depth.toInt_lt
    rw [matchBraces, Except.ok.injEq, List.map_nil, within_nil, level_nil, add_zero,
      and_iff_right ⟨h, hlt⟩, ← Int32.toInt_inj]
    rfl
  | cons b bs ih =>
    have hrange : 0 ≤ depth.toInt ∧ depth.toInt < 2 ^ 31 := ⟨h, depth.toInt_lt⟩
    rw [matchBraces_cons, List.map_cons, within_cons, level_cons, and_assoc, and_iff_right hrange,
      ← add_assoc]
    obtain ⟨hnext, htoInt, hmin, -⟩ | ⟨hnext, hout⟩ := nextDepth_cases h b
    · rw [if_neg hnext, ih (by omega), htoInt]
    · rw [if_pos hnext]
      exact iff_of_false nofun fun hwithin => hout hwithin.1.start

namespace FormatConverter

variable {converter : FormatConverter}

/-- **What is accepted**: documents with a signature whose braces are balanced, escaped ones
included. -/
theorem validateRtf_eq_ok_iff {data result : List UInt8} :
    converter.validateRtf data = .ok result ↔
      data.length ≤ converter.maxSize ∧ rtfSignature <+: data ∧ Climbs data ∧ result = data := by
  have hzero : (0 : Int32).toInt = 0 := rfl
  have hmatch := @matchBraces_eq_ok_iff 0 (by decide) data
  rw [hzero, zero_add] at hmatch
  rw [validateRtf, Climbs, ← hmatch]
  split_ifs with hsize hsignature
  · exact iff_of_false nofun fun h => absurd h.1 (Nat.not_le.mpr hsize)
  · rw [and_iff_right (Nat.not_lt.mp hsize), and_iff_right hsignature]
    split
    · rename_i e herror
      rw [herror]
      exact iff_of_false nofun fun h => nomatch h.1
    · rename_i depth hdepth
      rw [hdepth, Except.ok.injEq]
      split_ifs with hne
      · exact iff_of_false nofun fun h => hne h.1
      · rw [Except.ok.injEq, and_iff_right (not_not.mp hne)]
        exact eq_comm
  · exact iff_of_false nofun fun h => hsignature h.2.1

end FormatConverter

theorem groupsBalanced_iff {data : List UInt8} : GroupsBalanced data ↔
    (∀ front, front <+: data.map byteToken → 0 ≤ openGroups front) ∧
      openGroups (data.map byteToken) = 0 :=
  balanced_unescaped_iff

/-- All braces are the groups and the escaped ones. -/
theorem climbs_iff {data : List UInt8} : Climbs data ↔ EscapesFit data := by
  have hlevel : ∀ ts, openGroups ts + openEscaped ts = level ts :=
    level_unescaped_add_escaped false
  constructor
  · rintro ⟨hwithin, hclosed⟩
    refine ⟨fun front hfront => ?_, ?_⟩
    · have hrange := hwithin front hfront
      rw [← hlevel] at hrange
      omega
    · rw [← hlevel] at hclosed
      omega
  · rintro ⟨hdepth, hclosed⟩
    refine ⟨fun front hfront => ?_, ?_⟩
    · have hrange := hdepth front hfront
      rw [← hlevel]
      omega
    · rw [← hlevel]
      omega

/-- Without escaped braces, only the depth matters. -/
theorem escapesFit_iff_of_plain {data : List UInt8}
    (hplain : ∀ t ∈ escaped false (data.map byteToken), t.step = 0)
    (hdepth : ∀ front, front <+: data.map byteToken → openGroups front < 2 ^ 31) :
    EscapesFit data ↔ GroupsBalanced data := by
  have hnone : ∀ front, front <+: data.map byteToken → openEscaped front = 0 := by
    rintro front ⟨later, hlater⟩
    refine level_eq_zero fun t ht => hplain t ?_
    rw [← hlater, escaped_append]
    exact List.mem_append_left _ ht
  rw [groupsBalanced_iff]
  constructor
  · rintro ⟨hrange, hclosed⟩
    refine ⟨fun front hfront => ?_, ?_⟩
    · have hlow := (hrange front hfront).1
      rw [hnone front hfront] at hlow
      omega
    · rw [hnone _ List.prefix_rfl] at hclosed
      omega
  · rintro ⟨hnonneg, hclosed⟩
    refine ⟨fun front hfront => ?_, ?_⟩
    · have hlow := hnonneg front hfront
      have hhigh := hdepth front hfront
      rw [hnone front hfront]
      omega
    · rw [hnone _ List.prefix_rfl, hclosed]
      rfl

/-! ### What the encoder writes -/

theorem byteToken_of_ascii {c : Char} (h : c.toNat < 0x80) :
    byteToken (UInt8.ofNat c.toNat) = charToken c := by
  have hbyte : (UInt8.ofNat c.toNat).toNat = c.toNat := toNat_byte (by omega)
  have heq : ∀ d : Char, d.toNat < 0x80 →
      (UInt8.ofNat c.toNat = UInt8.ofNat d.toNat ↔ c = d) := by
    intro d hd
    rw [← UInt8.toNat_inj, hbyte, toNat_byte (by omega), Char.toNat_inj]
  have hopen := heq '\x7b' (by decide)
  have hclose := heq '\x7d' (by decide)
  have hescape := heq '\\' (by decide)
  rw [byteToken, charToken]
  exact if_congr hopen rfl (if_congr hclose rfl (if_congr hescape rfl rfl))

/-- Tokens without braces of which none is left to be taken. -/
structure Quiet (ts : List Token) : Prop where
  step : ∀ t ∈ ts, t.step = 0
  settled : dangling false ts = false

theorem Quiet.append {ts us : List Token} (hts : Quiet ts) (hus : Quiet us) :
    Quiet (ts ++ us) where
  step := fun t ht => (List.mem_append.mp ht).elim (hts.step t) (hus.step t)
  settled := by rw [dangling_append, hts.settled, hus.settled]

theorem quiet_other {ts : List Token} (h : ∀ t ∈ ts, t = .other) : Quiet ts where
  step := fun t ht => by rw [h t ht]; rfl
  settled := by
    induction ts with
    | nil => rfl
    | cons t ts ih =>
      obtain rfl := h t List.mem_cons_self
      exact ih fun u hu => h u (List.mem_cons_of_mem _ hu)

/-- An escape takes the token after it, whatever follows. -/
theorem quiet_escape {ts : List Token} (h : ∀ t ∈ ts, t = .other) :
    Quiet (.escape :: .other :: ts) where
  step := by
    intro t ht
    obtain rfl | ht := List.mem_cons.mp ht
    · rfl
    · have hquiet : Quiet (.other :: ts) := quiet_other (by simpa using h)
      exact hquiet.step t ht
  settled := (quiet_other h).settled

theorem mem_signed {n : ℤ} {d : Char} (h : d ∈ Text.signed n) :
    d.toNat < 0x80 ∧ charToken d = .other := by
  have hdigit : ∀ m, d ∈ Text.padded 0 m → d.toNat < 0x80 ∧ charToken d = .other := by
    intro m hm
    obtain ⟨-, hnine⟩ := Char.isDigit_iff_toNat.mp (Text.isDigit_of_mem_padded hm)
    have hle : d.toNat ≤ 57 := hnine
    have hne : ∀ e : Char, 57 < e.toNat → d ≠ e := by
      rintro e he rfl
      omega
    refine ⟨by omega, ?_⟩
    rw [charToken, if_neg (hne _ (by decide)), if_neg (hne _ (by decide)),
      if_neg (hne _ (by decide))]
  rw [Text.signed] at h
  split_ifs at h
  · obtain rfl | h := List.mem_cons.mp h
    · decide
    · exact hdigit _ h
  · exact hdigit _ h

theorem quiet_rtfUnicode (unit : UInt16) :
    (∀ d ∈ rtfUnicode unit, d.toNat < 0x80) ∧ Quiet ((rtfUnicode unit).map charToken) := by
  have htail : ∀ d ∈ Text.signed (asI16 unit) ++ ['?'], d.toNat < 0x80 ∧ charToken d = .other := by
    intro d hd
    obtain hd | hd := List.mem_append.mp hd
    · exact mem_signed hd
    · rw [List.mem_singleton.mp hd]
      decide
  refine ⟨?_, quiet_escape fun t ht => ?_⟩
  · intro d hd
    rw [rtfUnicode, List.mem_cons, List.mem_cons] at hd
    obtain rfl | rfl | hd := hd
    · decide
    · decide
    · exact (htail d hd).1
  · obtain ⟨d, hd, rfl⟩ := List.mem_map.mp ht
    exact (htail d hd).2

/-- A brace or a backslash is escaped; for any other character there are only quiet tokens. -/
theorem rtfEncodeChar_cases (c : Char) : (∀ d ∈ rtfEncodeChar c, d.toNat < 0x80) ∧
    (rtfEncodeChar c = ['\\', c] ∨
      (charToken c).step = 0 ∧ Quiet ((rtfEncodeChar c).map charToken)) := by
  rw [rtfEncodeChar]
  split_ifs with hbackslash hopen hclose hnewline hreturn hascii
  · subst hbackslash
    exact ⟨by simp, Or.inl rfl⟩
  · subst hopen
    exact ⟨by simp, Or.inl rfl⟩
  · subst hclose
    exact ⟨by simp, Or.inl rfl⟩
  · subst hnewline
    exact ⟨by simp, Or.inr ⟨by decide, quiet_escape (by decide)⟩⟩
  · subst hreturn
    exact ⟨List.forall_mem_nil _, Or.inr ⟨by decide, quiet_other (List.forall_mem_nil _)⟩⟩
  · have hother : charToken c = .other := by
      rw [charToken, if_neg hopen, if_neg hclose, if_neg hbackslash]
    exact ⟨by simpa using hascii, Or.inr ⟨by rw [hother]; rfl, quiet_other (by simpa using hother)⟩⟩
  · have hother : charToken c = .other := by
      rw [charToken, if_neg hopen, if_neg hclose, if_neg hbackslash]
    have hunits : ∀ units : List UInt16, (∀ d ∈ units.flatMap rtfUnicode, d.toNat < 0x80) ∧
        Quiet ((units.flatMap rtfUnicode).map charToken) := by
      intro units
      induction units with
      | nil => exact ⟨List.forall_mem_nil _, quiet_other (List.forall_mem_nil _)⟩
      | cons unit units ih =>
        obtain ⟨hunit, hquiet⟩ := quiet_rtfUnicode unit
        rw [List.flatMap_cons, List.map_append]
        exact ⟨fun d hd => (List.mem_append.mp hd).elim (hunit d) (ih.1 d), hquiet.append ih.2⟩
    exact ⟨(hunits _).1, Or.inr ⟨by rw [hother]; rfl, (hunits _).2⟩⟩

theorem tokens_rtfDocument (text : List Char) :
    (encodeUtf8 (rtfDocument text)).map byteToken = (rtfDocument text).map charToken := by
  have hascii : ∀ d ∈ rtfDocument text, d.toNat < 0x80 := by
    intro d hd
    rw [rtfDocument, List.mem_append, List.mem_append] at hd
    obtain hd | hd | hd := hd
    · have hheader : (rtfHeader.all fun e => decide (e.toNat < 0x80)) = true := rfl
      exact of_decide_eq_true (List.all_eq_true.mp hheader d hd)
    · obtain ⟨c, -, hc⟩ := List.mem_flatMap.mp hd
      exact (rtfEncodeChar_cases c).1 d hc
    · rw [List.mem_singleton.mp hd]
      decide
  rw [encodeUtf8_of_ascii hascii, List.map_map]
  exact List.map_congr_left fun d hd => byteToken_of_ascii (hascii d hd)

/-- The braces of an encoded text are those of the text. -/
theorem braces_flatMap (text : List Char) :
    braces ((text.flatMap rtfEncodeChar).map charToken) = braces (text.map charToken) := by
  induction text with
  | nil => rfl
  | cons c text ih =>
    rw [List.flatMap_cons, List.map_append, braces_append, ih, ← List.singleton_append,
      List.map_append, braces_append]
    refine congrArg (· ++ _) ?_
    obtain hspecial | ⟨hstep, hquiet⟩ := (rtfEncodeChar_cases c).2
    · rw [hspecial]
      rfl
    · rw [braces_eq_nil hquiet.step, braces_eq_nil (by simpa using hstep)]

/-- They are all escaped. -/
theorem unescaped_flatMap (text : List Char) :
    braces (unescaped false ((text.flatMap rtfEncodeChar).map charToken)) = [] ∧
      dangling false ((text.flatMap rtfEncodeChar).map charToken) = false := by
  induction text with
  | nil => exact ⟨rfl, rfl⟩
  | cons c text ih =>
    have hchar : braces (unescaped false ((rtfEncodeChar c).map charToken)) = [] ∧
        dangling false ((rtfEncodeChar c).map charToken) = false := by
      obtain hspecial | ⟨-, hquiet⟩ := (rtfEncodeChar_cases c).2
      · rw [hspecial]
        exact ⟨rfl, rfl⟩
      · exact ⟨braces_eq_nil fun t ht => hquiet.step t (mem_of_mem_unescaped ht), hquiet.settled⟩
    rw [List.flatMap_cons, List.map_append, unescaped_append, dangling_append, hchar.2,
      braces_append, hchar.1, ih.1, ih.2]
    exact ⟨rfl, rfl⟩

/-- The groups of a document are balanced, whatever the text. -/
theorem groupsBalanced_rtfDocument (text : List Char) :
    GroupsBalanced (encodeUtf8 (rtfDocument text)) := by
  have hheader : dangling false (rtfHeader.map charToken) = false ∧
      braces (unescaped false (rtfHeader.map charToken)) =
        [.opening, .opening, .opening, .closing, .closing] := by decide
  obtain ⟨hbraces, hdangling⟩ := unescaped_flatMap text
  refine balanced_of_braces ?_
  rw [tokens_rtfDocument, rtfDocument, List.map_append, List.map_append, unescaped_append,
    unescaped_append, hheader.1, hdangling, braces_append, braces_append, hheader.2, hbraces]
  decide

/-- The braces of a document are all balanced if those of the text are, up to one group that is
closed too early. -/
theorem climbs_rtfDocument (text : List Char) : Climbs (encodeUtf8 (rtfDocument text)) ↔
    Within (-1) (2 ^ 31 - 1) 0 (text.map charToken) ∧ level (text.map charToken) = 0 := by
  have hheader : braces (rtfHeader.map charToken) =
      [.opening, .opening, .opening, .closing, .closing] := by decide
  have hbraces : braces ((rtfDocument text).map charToken) =
      [.opening, .opening, .opening, .closing, .closing] ++
        (braces (text.map charToken) ++ [.closing]) := by
    rw [rtfDocument, List.map_append, List.map_append, braces_append, braces_append, hheader,
      braces_flatMap]
    rfl
  have hshift : Within 0 (2 ^ 31) 1 (text.map charToken) ↔
      Within (-1) (2 ^ 31 - 1) 0 (text.map charToken) := by
    refine forall₂_congr fun front _ => ?_
    omega
  rw [Climbs, tokens_rtfDocument, ← within_braces, ← level_braces, hbraces]
  simp only [List.cons_append, List.nil_append, within_cons, within_append, within_nil, level_cons,
    level_append, within_braces, level_braces, level_nil, Token.step]
  have hone : (0 + 1 + 1 + 1 + -1 + -1 : ℤ) = 1 := rfl
  rw [hone, hshift]
  constructor
  · rintro ⟨⟨-, -, -, -, -, hwithin, -⟩, hclosed⟩
    exact ⟨hwithin, by omega⟩
  · rintro ⟨hwithin, hclosed⟩
    rw [hclosed]
    exact ⟨⟨by omega, by omega, by omega, by omega, by omega, hwithin, by omega, by omega⟩, rfl⟩

/-! ### When the check is exact -/

/-- Just the documents with a signature and balanced groups are accepted. -/
def ExactFor (converter : FormatConverter) (data : List UInt8) : Prop :=
  converter.validateRtf data = .ok data ↔ rtfSignature <+: data ∧ GroupsBalanced data

theorem exactFor_iff {converter : FormatConverter} {data : List UInt8}
    (hsize : data.length ≤ converter.maxSize) : ExactFor converter data ↔
      (rtfSignature <+: data → (GroupsBalanced data ↔ EscapesFit data)) := by
  rw [ExactFor, FormatConverter.validateRtf_eq_ok_iff, and_iff_right hsize,
    and_iff_left (rfl : data = data), and_congr_right_iff, climbs_iff]
  exact imp_congr_right fun _ => iff_comm

/-- **When the check is exact.** For data that is not too large: if it has no signature, or the
escaped braces fit into groups that are balanced, or do not make up for groups that are not; so it
is for data without escaped braces. What the encoder writes has balanced groups, and is accepted if
and only if the braces of the text are balanced, where one group may be closed too early. -/
theorem validation_exact_iff (converter : FormatConverter) :
    (∀ data, data.length ≤ converter.maxSize →
      (ExactFor converter data ↔ ¬ rtfSignature <+: data ∨
        (GroupsBalanced data ∧ EscapesFit data) ∨ (¬ GroupsBalanced data ∧ ¬ EscapesFit data))) ∧
      (∀ data, data.length ≤ converter.maxSize →
        (∀ t ∈ escaped false (data.map byteToken), t.step = 0) →
        (∀ front, front <+: data.map byteToken → openGroups front < 2 ^ 31) →
          ExactFor converter data) ∧
      ∀ text data, converter.textToRtf text = .ok data → data.length ≤ converter.maxSize →
        rtfSignature <+: data ∧ GroupsBalanced data ∧
          (converter.validateRtf data = .ok data ↔
            Within (-1) (2 ^ 31 - 1) 0 (text.map charToken) ∧
              level (text.map charToken) = 0) := by
  refine ⟨fun data hsize => ?_, fun data hsize hplain hdepth => ?_, ?_⟩
  · rw [exactFor_iff hsize, ← iff_iff_and_or_not_and_not, ← imp_iff_not_or]
  · rw [exactFor_iff hsize, escapesFit_iff_of_plain hplain hdepth]
    exact fun _ => Iff.rfl
  · intro text data hdata hsize
    rw [FormatConverter.textToRtf] at hdata
    split_ifs at hdata
    obtain rfl := Except.ok.inj hdata
    have hsignature : rtfSignature <+: encodeUtf8 (rtfDocument text) := ⟨_, rfl⟩
    refine ⟨hsignature, groupsBalanced_rtfDocument text, ?_⟩
    rw [FormatConverter.validateRtf_eq_ok_iff, and_iff_right hsize, and_iff_right hsignature,
      and_iff_left rfl, climbs_rtfDocument]

/-- A brace in a text makes a document that is refused, and a document whose only closing brace is
escaped is accepted. -/
theorem escapedBrace_counted :
    ¬ ((∀ data, data.length ≤ FormatConverter.new.maxSize → ExactFor .new data) ∧
        ∀ text data, FormatConverter.new.textToRtf text = .ok data →
          data.length ≤ FormatConverter.new.maxSize →
            FormatConverter.new.validateRtf data = .ok data) ∧
      FormatConverter.new.validateRtf (encodeUtf8 (rtfDocument ['\x7b'])) =
        .error (.formatConversion "Invalid RTF: unmatched braces") ∧
      FormatConverter.new.validateRtf (rtfSignature ++ [0x5C, 0x7D]) =
        .ok (rtfSignature ++ [0x5C, 0x7D]) ∧
      ¬ GroupsBalanced (rtfSignature ++ [0x5C, 0x7D]) := by
  have hrefused : FormatConverter.new.validateRtf (encodeUtf8 (rtfDocument ['\x7b'])) =
      .error (.formatConversion "Invalid RTF: unmatched braces") := by decide
  refine ⟨fun ⟨_, hall⟩ => ?_, hrefused, by decide, by decide⟩
  have haccepted := hall ['\x7b'] (encodeUtf8 (rtfDocument ['\x7b'])) rfl (by decide)
  rw [hrefused] at haccepted
  cases haccepted

end Clipboard

end Cheirizo
