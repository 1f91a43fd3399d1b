import Cheirizo.Resize.Coordinator
import Cheirizo.Lib.Text

/-!
# The sizes a client may ask for

`validate_geometry_policy` and `request_layout` of `src/rdp/server/display_handler.rs`. A client
sends the layout of its monitors. The size of one of them is adjusted to what the protocol permits
and is then asked of the resize coordinator, unless the configuration rules it out.

## Conventions

The adjustment is the protocol library's, and nothing is assumed about it.

## Main definitions

* `validateGeometryPolicy` — the check of one size
* `requestLayout` — the size that a monitor layout asks for, if any
* `DisplayPolicy.Admits` — what the configuration admits

## Main results

* `validateGeometryPolicy_eq_ok` — the check lets through exactly what is admitted
-/

namespace Cheirizo

/-- What is configured about the display. -/
structure DisplayPolicy where
  /-- There is a compositor that can be told to resize. -/
  managed : Bool
  allowResize : Bool
  allowedResolutions : List (List Char)
  deriving DecidableEq, Repr

/-- The most pixels that a desktop may have. -/
def MAX_DESKTOP_AREA : ℕ := 3840 * 2400

namespace ResizeRequest

/-- How many pixels there are. -/
def area (r : ResizeRequest) : ℕ := r.width.toNat * r.height.toNat

/-- The size as it stands in the list of allowed resolutions. -/
def resolution (r : ResizeRequest) : List Char :=
  Text.padded 0 r.width.toNat ++ 'x' :: Text.padded 0 r.height.toNat

end ResizeRequest

/-! ### The check of a size -/

/-- Why a size is refused. -/
inductive GeometryError where
  | empty
  | tooLarge (requested : ResizeRequest)
  | notFixed (requested fixed : ResizeRequest)
  | disabled
  | notAllowed (requested : ResizeRequest)
  deriving DecidableEq, Repr

/-- What is wrong with a size other than the one that was configured, unless resizing is allowed. -/
def fixedSizeError (policy : DisplayPolicy) (requested : ResizeRequest) :
    Option ResizeRequest → Option GeometryError
  | some fixed =>
    if policy.allowResize ∨ fixed = requested then none else some (.notFixed requested fixed)
  | none => if policy.allowResize then none else some .disabled

/-- The first check that fails is the error. -/
def validateGeometryPolicy (policy : DisplayPolicy) (requested : ResizeRequest)
    (fixedSize : Option ResizeRequest) : Except GeometryError ResizeRequest :=
  if requested.width = 0 ∨ requested.height = 0 then .error .empty
  else if MAX_DESKTOP_AREA < requested.area then .error (.tooLarge requested)
  else
    match fixedSizeError policy requested fixedSize with
    | some error => .error error
    | none =>
      if policy.allowedResolutions ≠ [] ∧ requested.resolution ∉ policy.allowedResolutions then
        .error (.notAllowed requested)
      else .ok requested

/-- The sizes that the configuration admits, when `fixedSize` is the one that was configured. -/
structure DisplayPolicy.Admits (policy : DisplayPolicy) (fixedSize : Option ResizeRequest)
    (r : ResizeRequest) : Prop where
  width : r.width ≠ 0
  height : r.height ≠ 0
  area : r.area ≤ MAX_DESKTOP_AREA
  resize : policy.allowResize = true ∨ fixedSize = some r
  resolution : policy.allowedResolutions = [] ∨ r.resolution ∈ policy.allowedResolutions

variable {policy : DisplayPolicy} {requested r : ResizeRequest} {fixedSize : Option ResizeRequest}

theorem fixedSizeError_eq_none :
    fixedSizeError policy requested fixedSize = none ↔
      policy.allowResize = true ∨ fixedSize = some requested := by
  cases fixedSize with
  | none => simp [fixedSizeError]
  | some fixed =>
    rw [fixedSizeError, Option.some_inj, ite_eq_left_iff, imp_iff_not (by simp), not_not]

/-- **The check of a size.** What is admitted comes back as it is, and nothing else does. -/
theorem validateGeometryPolicy_eq_ok :
    validateGeometryPolicy policy requested fixedSize = .ok r ↔
      r = requested ∧ policy.Admits fixedSize requested := by
  rw [validateGeometryPolicy]
  by_cases hempty : requested.width = 0 ∨ requested.height = 0
  · rw [if_pos hempty]
    exact iff_of_false nofun fun h => hempty.elim h.2.width h.2.height
  rw [if_neg hempty]
  by_cases harea : MAX_DESKTOP_AREA < requested.area
  · rw [if_pos harea]
    exact iff_of_false nofun fun h => Nat.not_le.mpr harea h.2.area
  rw [if_neg harea]
  cases hfixed : fixedSizeError policy requested fixedSize with
  | some error =>
    refine iff_of_false nofun fun h => ?_
    rw [fixedSizeError_eq_none.mpr h.2.resize] at hfixed
    cases hfixed
  | none =>
    dsimp only
    by_cases hlist : policy.allowedResolutions ≠ [] ∧
        requested.resolution ∉ policy.allowedResolutions
    · rw [if_pos hlist]
      exact iff_of_false nofun fun h => h.2.resolution.elim hlist.1 hlist.2
    · rw [if_neg hlist, Except.ok.injEq, eq_comm, iff_self_and]
      push Not at hempty
      intro _
      exact ⟨hempty.1, hempty.2, Nat.not_lt.mp harea, fixedSizeError_eq_none.mp hfixed,
        or_iff_not_imp_left.mpr fun hne => by_contra fun hmem => hlist ⟨hne, hmem⟩⟩

/-! ### A layout of monitors -/

/-- A monitor of the client, as far as the size of the desktop depends on it. -/
structure MonitorLayoutEntry where
  isPrimary : Bool
  width : UInt32
  height : UInt32
  deriving DecidableEq, Repr

section Layout

variable (adjustDisplaySize : UInt32 → UInt32 → UInt32 × UInt32) (policy : DisplayPolicy)

/-- The size in 16 bits, if it fits and is admitted. -/
def allowedResize (rawWidth rawHeight : UInt32) : Option ResizeRequest :=
  let size := adjustDisplaySize rawWidth rawHeight
  if size.1.toNat < 2 ^ 16 ∧ size.2.toNat < 2 ^ 16 then
    match validateGeometryPolicy policy ⟨size.1.toUInt16, size.2.toUInt16⟩ none with
    | .ok accepted => some accepted
    | .error _ => none
  else none

/-- The size that the coordinator is asked for: that of the primary monitor, or of the first. -/
def requestLayout (monitors : List MonitorLayoutEntry) : Option ResizeRequest :=
  match (monitors.find? MonitorLayoutEntry.isPrimary).or monitors.head? with
  | some monitor =>
    if policy.managed then allowedResize adjustDisplaySize policy monitor.width monitor.height
    else none
  | none => none

variable {adjustDisplaySize policy}

/-- What a layout asks for is admitted, and there is a compositor to carry it out. -/
theorem admits_of_requestLayout {monitors : List MonitorLayoutEntry} {r : ResizeRequest}
    (h : requestLayout adjustDisplaySize policy monitors = some r) :
    policy.managed = true ∧ policy.Admits none r := by
  rw [requestLayout] at h
  split at h
  · split_ifs at h with hmanaged
    refine ⟨hmanaged, ?_⟩
    rw [allowedResize] at h
    split_ifs at h
    split at h
    · rename_i accepted hok
      obtain ⟨rfl, hadmits⟩ := validateGeometryPolicy_eq_ok.mp hok
      cases h
      exact hadmits
    · cases h
  · cases h

end Layout

end Cheirizo
