import Cheirizo.Lib.AnnexB
import Cheirizo.Graphics.Avc444

/-!
# Parameter sets

`egfx/h264/encoder.rs`. The AVC420 encoder keeps the parameter sets of a keyframe and puts them in
front of the pictures after it. It finds them with a scanner of its own, `parameterSets`, which
lists the start codes and then, unit by unit, scans again for where the unit ends. The scanner of
the AVC444 encoder, `extractSpsPps`, walks from one unit to the next.

On a stream of units both return what they look for, and nothing else.

## Main results

* `annexB_stream` — the units of a stream, one by one
* `parameterSets_stream`, `extractFrom_stream` — the parameter sets of a stream
* `parameterSets_eq_extractSpsPps` — the two scanners agree
-/

namespace Cheirizo

namespace Graphics

open AnnexB NalUnit

/-! ### The scanner of the AVC420 encoder -/

/-- The start codes from a position on, each with its length. -/
def startsFrom (data : List UInt8) (i : ℕ) : List (ℕ × ℕ) :=
  if i + 3 ≤ data.length then
    if [0, 0, 0, 1] <+: data.drop i then (i, 4) :: startsFrom data (i + 4)
    else if [0, 0, 1] <+: data.drop i then (i, 3) :: startsFrom data (i + 3)
    else startsFrom data (i + 1)
  else []
termination_by data.length - i

/-- The search for a start code by its number, from a position on and after some were counted. It
steps by three even over a start code of four bytes. -/
def startsGetFrom (data : List UInt8) (wanted count i : ℕ) : Option ℕ :=
  if i + 3 ≤ data.length then
    if [0, 0, 1] <+: data.drop i ∨ [0, 0, 0, 1] <+: data.drop i then
      if count = wanted then some i else startsGetFrom data wanted (count + 1) (i + 3)
    else startsGetFrom data wanted count (i + 1)
  else none
termination_by data.length - i

/-- Where the start code with a number is, counted from zero. -/
def startsGet (data : List UInt8) (wanted : ℕ) : Option ℕ :=
  startsGetFrom data wanted 0 0

/-- The unit at a start code, with its type. The start code's number is used to find the next one.
Where nothing follows there is no unit, and the byte behind is not read. -/
def unitAt (data : List UInt8) : (ℕ × ℕ) × ℕ → Option (List UInt8 × UInt8)
  | ((start, prefixLen), index) =>
    let stop := (startsGet data (index + 1)).getD data.length
    let payload := start + prefixLen
    if payload < stop then
      some ((data.drop start).take (stop - start), data.getD payload 0 &&& 0x1F)
    else none

/-- The units with their types. -/
def annexB (data : List UInt8) : List (List UInt8 × UInt8) :=
  (startsFrom data 0).zipIdx.filterMap (unitAt data)

/-- The units that are parameter sets, with their start codes. -/
def parameterSets (data : List UInt8) : List UInt8 :=
  ((annexB data).filter fun (_, kind) => kind = 7 ∨ kind = 8).flatMap Prod.fst

/-! ### A scanner in a stream -/

theorem drop_add {data front rest : List UInt8} {i : ℕ} (h : data.drop i = front ++ rest) :
    data.drop (i + front.length) = rest := by
  rw [← List.drop_drop, h, List.drop_left]

theorem length_of_drop {data rest : List UInt8} {i : ℕ} (hi : i ≤ data.length)
    (h : data.drop i = rest) : data.length = i + rest.length := by
  rw [← h, List.length_drop]
  omega

/-- There is room for a start code where one begins. -/
theorem room_of_startsUnit {data : List UInt8} {i : ℕ} (h : StartsUnit (data.drop i)) :
    i + 3 ≤ data.length := by
  have hlength : 3 ≤ (data.drop i).length := by
    obtain h | h := h
    · exact h.length_le
    · exact (Nat.le_succ 3).trans h.length_le
  rw [List.length_drop] at hlength
  omega

theorem startsFrom_step {data : List UInt8} {i : ℕ} (h : ¬ StartsUnit (data.drop i)) :
    startsFrom data i = startsFrom data (i + 1) := by
  rw [StartsUnit, not_or] at h
  by_cases hi : i + 3 ≤ data.length
  · rw [startsFrom, if_pos hi, if_neg h.2, if_neg h.1]
  · rw [startsFrom, if_neg hi, startsFrom, if_neg (by omega)]

theorem startsGetFrom_step {data : List UInt8} {wanted count i : ℕ}
    (h : ¬ StartsUnit (data.drop i)) :
    startsGetFrom data wanted count i = startsGetFrom data wanted count (i + 1) := by
  rw [StartsUnit] at h
  by_cases hi : i + 3 ≤ data.length
  · rw [startsGetFrom, if_pos hi, if_neg h]
  · rw [startsGetFrom, if_neg hi, startsGetFrom, if_neg (by omega)]

/-- A scanner that steps over each byte at which no start code begins gets through a quiet piece. -/
theorem scan_quiet {α : Type} {scan : ℕ → α} {data : List UInt8}
    (hscan : ∀ i, i < data.length → ¬ StartsUnit (data.drop i) → scan i = scan (i + 1))
    {quiet rest : List UInt8} (hquiet : Quiet quiet) {i : ℕ} (h : data.drop i = quiet ++ rest) :
    scan i = scan (i + quiet.length) := by
  induction quiet generalizing i with
  | nil => rfl
  | cons byte bytes ih =>
    have hi : i < data.length := by
      by_contra hge
      rw [List.drop_eq_nil_of_le (Nat.le_of_not_lt hge)] at h
      cases h
    have hstep : scan i = scan (i + 1) := by
      refine hscan i hi ?_
      rw [h]
      exact hquiet.not_startsUnit
    have hnext : data.drop (i + 1) = bytes ++ rest :=
      drop_add (show data.drop i = [byte] ++ (bytes ++ rest) from h)
    rw [hstep, ih hquiet.tail hnext, List.length_cons]
    congr 1
    omega

/-! ### The AVC420 scanner in a stream -/

theorem startsFrom_unit {data rest : List UInt8} {i : ℕ} {u : NalUnit}
    (h : data.drop i = u.startCode ++ rest) :
    startsFrom data i =
      (i, u.startCode.length) :: startsFrom data (i + u.startCode.length) := by
  have hcode : StartsUnit (data.drop i) := by
    rw [h]
    exact u.startsUnit_append rest
  rw [startsFrom, if_pos (room_of_startsUnit hcode), h, startCode]
  split
  · rw [if_pos (List.prefix_append _ _)]
    rfl
  · rw [if_neg (by simp [List.cons_prefix_cons]), if_pos (List.prefix_append _ _)]
    rfl

/-- Where the units of a stream start. -/
def starts : ℕ → List NalUnit → List (ℕ × ℕ)
  | _, [] => []
  | i, u :: units => (i, u.startCode.length) :: starts (i + u.bytes.length) units

theorem startsFrom_stream {data : List UInt8} {i : ℕ} {units : List NalUnit}
    (h : data.drop i = stream units) : startsFrom data i = starts i units := by
  induction units generalizing i with
  | nil =>
    rw [startsFrom, if_neg, starts]
    have hi : data.length ≤ i := List.drop_eq_nil_iff.mp h
    omega
  | cons u units ih =>
    rw [stream_cons] at h
    have hpayload := drop_add h
    rw [startsFrom_unit h, scan_quiet (fun _ _ => startsFrom_step) u.quiet_payload hpayload,
      Nat.add_assoc, ← List.length_append]
    have hnext : data.drop (i + u.bytes.length) = stream units := by
      rw [bytes, List.length_append, ← Nat.add_assoc]
      exact drop_add hpayload
    exact congrArg _ (ih hnext)

/-- The search ends where the unit with the wanted number starts, or at the end of the stream. -/
theorem startsGetFrom_stream {data quiet : List UInt8} {wanted count i : ℕ} {units : List NalUnit}
    (hi : i ≤ data.length) (h : data.drop i = quiet ++ stream units) (hquiet : Quiet quiet)
    (hcount : count ≤ wanted) :
    (startsGetFrom data wanted count i).getD data.length =
      i + quiet.length + (stream (units.take (wanted - count))).length := by
  induction units generalizing i quiet count with
  | nil =>
    have hlength := length_of_drop hi h
    rw [stream_nil, List.append_nil] at hlength
    rw [scan_quiet (fun _ _ => startsGetFrom_step) hquiet h, startsGetFrom, if_neg (by omega),
      List.take_nil, stream_nil]
    exact hlength
  | cons u units ih =>
    rw [scan_quiet (fun _ _ => startsGetFrom_step) hquiet h]
    have hunit : data.drop (i + quiet.length) = u.startCode ++ (u.payload ++ stream units) := by
      rw [← stream_cons]
      exact drop_add h
    have hcode : StartsUnit (data.drop (i + quiet.length)) := by
      rw [hunit]
      exact u.startsUnit_append _
    have hroom := room_of_startsUnit hcode
    rw [StartsUnit] at hcode
    rw [startsGetFrom, if_pos hroom, if_pos hcode]
    split
    · rename_i hwanted
      rw [hwanted, Nat.sub_self, List.take_zero]
      rfl
    · rename_i hwanted
      -- three bytes on, only the last byte of a longer start code is left of it
      have hafter : data.drop (i + quiet.length + 3) =
          u.startCode.drop 3 ++ u.payload ++ stream units := by
        rw [← List.drop_drop, hunit, List.drop_append_of_le_length u.three_le_length,
          List.append_assoc]
      have hleft : wanted - count = (wanted - (count + 1)) + 1 := by omega
      rw [ih hroom hafter u.quiet_drop (by omega), hleft, List.take_succ_cons, stream_cons]
      simp only [List.length_append, List.length_drop]
      have hthree := u.three_le_length
      omega

theorem startsGet_stream (units : List NalUnit) (wanted : ℕ) :
    (startsGet (stream units) wanted).getD (stream units).length =
      (stream (units.take wanted)).length := by
  have hfront : (stream units).drop 0 = [] ++ stream units := rfl
  have hsearch := startsGetFrom_stream (Nat.zero_le _) hfront quiet_nil (Nat.zero_le wanted)
  rw [startsGet, hsearch, Nat.sub_zero, List.length_nil, Nat.zero_add]

/-- The number of a unit leads to where it ends. -/
theorem unitAt_stream (before units : List NalUnit) (u : NalUnit) :
    unitAt (stream (before ++ u :: units))
      (((stream before).length, u.startCode.length), before.length) = some (u.bytes, u.kind) := by
  have htake : (before ++ u :: units).take (before.length + 1) = before ++ [u] := by
    rw [List.take_length_add_append, List.take_succ_cons, List.take_zero]
  have hstop : (startsGet (stream (before ++ u :: units)) (before.length + 1)).getD
      (stream (before ++ u :: units)).length = (stream before).length + u.bytes.length := by
    rw [startsGet_stream, htake, stream_append, List.length_append, stream_singleton]
  have hdrop : (stream (before ++ u :: units)).drop (stream before).length =
      u.bytes ++ stream units := by
    rw [stream_append, List.drop_left]
    rfl
  have hpayload : (stream (before ++ u :: units)).getD
      ((stream before).length + u.startCode.length) 0 = u.payload.head u.payload_ne_nil := by
    rw [List.getD_eq_getElem?_getD, ← List.getElem?_drop, hdrop, bytes, List.append_assoc,
      List.getElem?_append_right (Nat.le_refl _), Nat.sub_self, ← List.head?_eq_getElem?,
      List.head?_append_of_ne_nil _ u.payload_ne_nil, List.head?_eq_some_head u.payload_ne_nil]
    rfl
  have hlt : u.startCode.length < u.bytes.length := by
    have hpos := List.length_pos_of_ne_nil u.payload_ne_nil
    rw [bytes, List.length_append]
    omega
  rw [unitAt, hstop, if_pos (Nat.add_lt_add_left hlt _), hpayload, hdrop, Nat.add_sub_cancel_left,
    List.take_left, kind]

theorem filterMap_starts (before units : List NalUnit) :
    ((starts (stream before).length units).zipIdx before.length).filterMap
        (unitAt (stream (before ++ units))) =
      units.map fun u => (u.bytes, u.kind) := by
  induction units generalizing before with
  | nil => rfl
  | cons u units ih =>
    have hstart : (stream (before ++ [u])).length = (stream before).length + u.bytes.length := by
      rw [stream_append, List.length_append, stream_singleton]
    have hnext := ih (before ++ [u])
    rw [hstart, List.length_append, List.length_singleton, List.append_assoc,
      List.singleton_append] at hnext
    rw [starts, List.zipIdx_cons, List.filterMap_cons_some (unitAt_stream before units u), hnext,
      List.map_cons]

theorem annexB_stream (units : List NalUnit) :
    annexB (stream units) = units.map fun u => (u.bytes, u.kind) := by
  rw [annexB, startsFrom_stream rfl]
  exact filterMap_starts [] units

/-- The unit is a parameter set, of a sequence or of a picture. -/
def IsParameterSet (u : NalUnit) : Prop :=
  u.kind = 7 ∨ u.kind = 8
  deriving Decidable

theorem parameterSets_stream (units : List NalUnit) :
    parameterSets (stream units) = stream (units.filter IsParameterSet) := by
  rw [parameterSets, annexB_stream, List.filter_map, List.flatMap_map]
  rfl

/-! ### The AVC444 scanner in a stream -/

theorem startCodeLen_unit {data rest : List UInt8} {i : ℕ} {u : NalUnit}
    (h : data.drop i = u.startCode ++ rest) : startCodeLen data i = some u.startCode.length := by
  have hroom : i + u.startCode.length ≤ data.length := by
    have hlength := congrArg List.length h
    rw [List.length_drop, List.length_append] at hlength
    have hthree := u.three_le_length
    omega
  rw [startCodeLen, h]
  rw [startCode] at hroom ⊢
  split at hroom
  · rename_i hlong
    rw [if_pos hlong]
    exact if_pos ⟨hroom, rfl⟩
  · rename_i hlong
    rw [if_neg hlong, if_neg (by simp), if_pos ⟨hroom, rfl⟩]
    rfl

/-- The test of the search for the end of a unit finds the start codes. -/
theorem endsUnit_iff {data : List UInt8} {j : ℕ} :
    ((data.drop j).take 3 = [0x00, 0x00, 0x01] ∨
      (j + 3 < data.length ∧ (data.drop j).take 4 = [0x00, 0x00, 0x00, 0x01])) ↔
        StartsUnit (data.drop j) := by
  rw [StartsUnit, List.prefix_iff_eq_take, List.prefix_iff_eq_take]
  refine or_congr eq_comm ⟨fun h => h.2.symm, fun h => ⟨?_, h.symm⟩⟩
  have hlength := congrArg List.length h
  rw [List.length_take, List.length_drop] at hlength
  have hfour : min 4 (data.length - j) = 4 := hlength.symm
  omega

/-- The search for a start code from a position on. -/
theorem find_step {data : List UInt8} {j : ℕ} (h : ¬ StartsUnit (data.drop j)) :
    ((List.range' j (data.length - 2 - j)).find? fun j => StartsUnit (data.drop j)) =
      (List.range' (j + 1) (data.length - 2 - (j + 1))).find? fun j =>
        StartsUnit (data.drop j) := by
  cases hn : data.length - 2 - j with
  | zero =>
    have hnone : data.length - 2 - (j + 1) = 0 := by omega
    rw [hnone]
    rfl
  | succ n =>
    have hleft : data.length - 2 - (j + 1) = n := by omega
    rw [hleft, List.range'_succ, List.find?_cons_of_neg (by simpa using h)]

/-- A unit ends behind its payload. -/
theorem findNalEnd_stream {data payload : List UInt8} {units : List NalUnit} {nalStart : ℕ}
    (hne : payload ≠ []) (hquiet : Quiet payload)
    (h : data.drop nalStart = payload ++ stream units) :
    findNalEnd data nalStart = nalStart + payload.length := by
  obtain ⟨byte, bytes, rfl⟩ := List.exists_cons_of_ne_nil hne
  have hnext : data.drop (nalStart + 1) = bytes ++ stream units :=
    drop_add (show data.drop nalStart = [byte] ++ (bytes ++ stream units) from h)
  have hend := drop_add hnext
  have hle : nalStart + 1 + bytes.length ≤ data.length := by
    have hlength := congrArg List.length h
    rw [List.length_drop, List.length_append, List.length_cons] at hlength
    omega
  rw [findNalEnd]
  simp only [endsUnit_iff]
  rw [scan_quiet (fun _ _ => find_step) hquiet.tail hnext, List.length_cons,
    Nat.add_comm bytes.length, ← Nat.add_assoc]
  cases units with
  | nil =>
    have hlength := length_of_drop hle hend
    rw [stream_nil, List.length_nil, Nat.add_zero] at hlength
    have hnone : data.length - 2 - (nalStart + 1 + bytes.length) = 0 := by omega
    rw [hnone]
    exact hlength
  | cons u units =>
    have hcode : StartsUnit (data.drop (nalStart + 1 + bytes.length)) := by
      rw [hend, stream_cons]
      exact u.startsUnit_append _
    have hroom := room_of_startsUnit hcode
    obtain ⟨n, hn⟩ : ∃ n, data.length - 2 - (nalStart + 1 + bytes.length) = n + 1 :=
      ⟨data.length - 3 - (nalStart + 1 + bytes.length), by omega⟩
    rw [hn, List.range'_succ, List.find?_cons_of_pos (by simpa using hcode)]
    rfl

/-- From a unit on, the scanner collects the parameter sets. -/
theorem extractFrom_stream {data spsPps : List UInt8} {i : ℕ} {units : List NalUnit}
    (h : data.drop i = stream units) :
    extractFrom data i spsPps = spsPps ++ stream (units.filter IsParameterSet) := by
  induction units generalizing i spsPps with
  | nil =>
    have hi : data.length ≤ i := List.drop_eq_nil_iff.mp h
    rw [extractFrom, dif_neg (by omega), List.filter_nil, stream_nil, List.append_nil]
  | cons u units ih =>
    rw [stream_cons] at h
    have hpayload := drop_add h
    have hend := findNalEnd_stream u.payload_ne_nil u.quiet_payload hpayload
    have hnext := drop_add hpayload
    have hpos := List.length_pos_of_ne_nil u.payload_ne_nil
    have hlength : data.length =
        i + (u.startCode.length + (u.payload.length + (stream units).length)) := by
      have hall := congrArg List.length h
      rw [List.length_drop, List.length_append, List.length_append] at hall
      omega
    have hnal : i + u.startCode.length < data.length := by omega
    have hkind : data[i + u.startCode.length] = u.payload.head u.payload_ne_nil := by
      rw [List.getElem_eq_iff, ← List.head?_drop, hpayload,
        List.head?_append_of_ne_nil _ u.payload_ne_nil, List.head?_eq_some_head u.payload_ne_nil]
    have hslice : (data.drop i).take (i + u.startCode.length + u.payload.length - i) = u.bytes := by
      rw [h, ← List.append_assoc, Nat.add_assoc, Nat.add_sub_cancel_left, ← List.length_append,
        List.take_left, bytes]
    rw [extractFrom, dif_pos (by omega), startCodeLen_unit h]
    dsimp only
    rw [dif_pos hnal, hend, hslice, hkind]
    have hadded : (if u.payload.head u.payload_ne_nil &&& 0x1F = 7 ∨
        u.payload.head u.payload_ne_nil &&& 0x1F = 8 then spsPps ++ u.bytes else spsPps) ++
          stream (units.filter IsParameterSet) =
        spsPps ++ stream ((u :: units).filter IsParameterSet) := by
      by_cases hset : IsParameterSet u
      · rw [List.filter_cons_of_pos (by simpa using hset), stream_cons]
        rw [IsParameterSet, kind] at hset
        rw [if_pos hset, bytes, List.append_assoc, List.append_assoc]
      · rw [List.filter_cons_of_neg (by simpa using hset)]
        rw [IsParameterSet, kind] at hset
        rw [if_neg hset]
    split
    · rename_i hlast
      have hunits : units = [] := by
        rw [← stream_eq_nil, ← List.length_eq_zero_iff]
        omega
      rw [← hadded, hunits, List.filter_nil, stream_nil, List.append_nil]
    · rw [ih hnext]
      exact hadded

theorem extractSpsPps_stream (units : List NalUnit) :
    extractSpsPps (stream units) =
      if units.filter IsParameterSet = [] then none
      else some (stream (units.filter IsParameterSet)) := by
  have hall : extractFrom (stream units) 0 [] = stream (units.filter IsParameterSet) :=
    extractFrom_stream rfl
  rw [extractSpsPps, hall]
  exact if_congr stream_eq_nil rfl rfl

/-- **The scanners agree.** On a stream of units, with start codes of either length, both find the
parameter sets, in their order and with their start codes, and nothing else. -/
theorem parameterSets_eq_extractSpsPps (units : List NalUnit) :
    parameterSets (stream units) = stream (units.filter IsParameterSet) ∧
      extractSpsPps (stream units) =
        if units.filter IsParameterSet = [] then none
        else some (stream (units.filter IsParameterSet)) :=
  ⟨parameterSets_stream units, extractSpsPps_stream units⟩

end Graphics

end Cheirizo
