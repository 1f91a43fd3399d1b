import Cheirizo.Auth.Validator
import Mathlib.Data.List.TakeWhile

/-!
# The account a login name stands for

A client may give its login name with a domain in front, after an at sign, or both, and more than
once. The validators reduce it to a local account name before they look it up, and the connection
binder of `src/rdp/server/production.rs` reduces the name it was given once more, by a function of
its own, before it ensures a session.

## Main definitions

* `Server.normalizeLocalAccountName` — the binder's own function
* `LocalAccountChar` — what a local account name is made of

## Main results

* `normalizeLocalAccountName_infix` — an account name is a part of the login name, without
  separators
* `validateUsername_ok_iff` — what a validated name is
* `normalizeLocalAccountName_of_validated` — the account of a validated name is a validated name
  itself and its own account, and the binder finds the same
-/

namespace Cheirizo

namespace Server

/-- The binder's copy: what is behind the last backslash and in front of the first at sign. -/
def normalizeLocalAccountName (username : String) : String :=
  let cs := username.toList
  let withoutDomain := ((Text.rsplitOnce ['\\'] cs).map Prod.snd).getD cs
  String.ofList (withoutDomain.takeWhile (· ≠ '@'))

end Server

namespace Auth

variable {isAlphanumeric : Char → Bool} {username : String}

/-- What a local account name is made of. -/
def LocalAccountChar (isAlphanumeric : Char → Bool) (c : Char) : Prop :=
  c ≠ '\\' ∧ c ≠ '@' ∧ (isAlphanumeric c = true ∨ c ∈ ['_', '-', '.'])

/-! ### An account name is a part of the login name -/

theorem withoutDomain_suffix (cs : List Char) :
    ((Text.rsplitOnce ['\\'] cs).map Prod.snd).getD cs <:+ cs ∧
      '\\' ∉ ((Text.rsplitOnce ['\\'] cs).map Prod.snd).getD cs := by
  obtain ⟨hmem, hnone⟩ | ⟨before, after, hcs, hafter, hsome⟩ := Text.rsplitOnce_cases '\\' cs
  · rw [hnone]
    exact ⟨List.suffix_rfl, hmem⟩
  · rw [hsome]
    exact ⟨⟨before ++ ['\\'], by simp [hcs]⟩, hafter⟩

theorem normalizeLocalAccountName_infix (username : String) :
    (normalizeLocalAccountName username).toList <:+: username.toList ∧
      '\\' ∉ (normalizeLocalAccountName username).toList ∧
      '@' ∉ (normalizeLocalAccountName username).toList := by
  obtain ⟨hsuffix, hbackslash⟩ := withoutDomain_suffix username.toList
  have hfront := List.takeWhile_prefix (· ≠ '@')
    (l := ((Text.rsplitOnce ['\\'] username.toList).map Prod.snd).getD username.toList)
  rw [normalizeLocalAccountName, String.toList_ofList]
  refine ⟨hfront.isInfix.trans hsuffix.isInfix, fun h => hbackslash (hfront.subset h), ?_⟩
  intro hat
  simpa using List.mem_takeWhile_imp hat

/-- A name without separators is its own account. -/
theorem normalizeLocalAccountName_eq_self (hbackslash : '\\' ∉ username.toList)
    (hat : '@' ∉ username.toList) : normalizeLocalAccountName username = username := by
  have hkept : username.toList.takeWhile (· ≠ '@') = username.toList := by
    rw [List.takeWhile_eq_self_iff]
    intro c hc
    simpa using ne_of_mem_of_not_mem hc hat
  rw [normalizeLocalAccountName, Text.rsplitOnce_of_notMem hbackslash, Option.map_none,
    Option.getD_none, hkept, String.ofList_toList]

/-- A part of a text takes no more bytes than the text. -/
theorem utf8ByteSize_le_of_isInfix {s t : String} (h : s.toList <:+: t.toList) :
    s.utf8ByteSize ≤ t.utf8ByteSize := by
  obtain ⟨before, after, hcs⟩ := h
  have ht : t = String.ofList before ++ s ++ String.ofList after := by
    rw [← String.toList_inj, ← hcs]
    simp
  rw [ht, String.utf8ByteSize_append, String.utf8ByteSize_append]
  omega

/-! ### What is validated -/

/-- What the validation of a login name checks. -/
structure Validated (isAlphanumeric : Char → Bool) (username : String) : Prop where
  nonempty : username ≠ ""
  short : username.utf8ByteSize ≤ 255
  printable : ∀ c ∈ username.toList, isControl c = false
  punctuation : ∀ c ∈ username.toList,
    isAlphanumeric c = true ∨ c ∈ ['_', '-', '.', '\\', '@']
  account : normalizeLocalAccountName username ≠ ""

theorem validateUsername_ok_iff :
    validateUsername isAlphanumeric username = .ok () ↔ Validated isAlphanumeric username := by
  rw [validateUsername]
  constructor
  · intro h
    split_ifs at h with hempty hlong hcontrol hchars haccount
    refine ⟨?_, not_lt.mp hlong, ?_, ?_, ?_⟩
    · simpa using hempty
    · simpa using hcontrol
    · simpa only [Bool.not_eq_true', Bool.not_eq_false, List.all_eq_true, Bool.or_eq_true,
        decide_eq_true_eq] using hchars
    · simpa using haccount
  · intro h
    rw [if_neg (by simpa using h.nonempty), if_neg (not_lt.mpr h.short),
      if_neg (by simpa using h.printable), if_neg, if_neg (by simpa using h.account)]
    simpa only [Bool.not_eq_true', Bool.not_eq_false, List.all_eq_true, Bool.or_eq_true,
      decide_eq_true_eq] using h.punctuation

/-- The account of a validated name is non-empty, short and made of account characters, is validated
and is its own account, and it is the account the binder finds for the name. -/
theorem normalizeLocalAccountName_of_validated (isAlphanumeric : Char → Bool) (username : String)
    (h : validateUsername isAlphanumeric username = .ok ()) :
    let account := normalizeLocalAccountName username
    account ≠ "" ∧ account.utf8ByteSize ≤ 255 ∧
      (∀ c ∈ account.toList, LocalAccountChar isAlphanumeric c) ∧
      validateUsername isAlphanumeric account = .ok () ∧
      normalizeLocalAccountName account = account ∧
      Server.normalizeLocalAccountName username = account ∧
      Server.normalizeLocalAccountName account = account := by
  intro account
  have hvalid := validateUsername_ok_iff.mp h
  obtain ⟨hin, hbackslash, hat⟩ := normalizeLocalAccountName_infix username
  have hfixed : normalizeLocalAccountName account = account :=
    normalizeLocalAccountName_eq_self hbackslash hat
  have hchars : ∀ c ∈ account.toList, LocalAccountChar isAlphanumeric c := by
    intro c hc
    have hnotBackslash : c ≠ '\\' := ne_of_mem_of_not_mem hc hbackslash
    have hnotAt : c ≠ '@' := ne_of_mem_of_not_mem hc hat
    have hpunctuation := hvalid.punctuation c (hin.subset hc)
    simp only [List.mem_cons, List.not_mem_nil, or_false, hnotBackslash, hnotAt] at hpunctuation
    exact ⟨hnotBackslash, hnotAt, by simpa using hpunctuation⟩
  have haccount : Validated isAlphanumeric account := by
    refine ⟨hvalid.account, (utf8ByteSize_le_of_isInfix hin).trans hvalid.short,
      fun c hc => hvalid.printable c (hin.subset hc),
      fun c hc => hvalid.punctuation c (hin.subset hc), ?_⟩
    rw [hfixed]
    exact hvalid.account
  exact ⟨hvalid.account, haccount.short, hchars, validateUsername_ok_iff.mpr haccount, hfixed, rfl,
    hfixed⟩

/-- Domains in front of domains, and at signs behind one another. -/
theorem normalizeLocalAccountName_of_validated_nested :
    validateUsername Char.isAlphanum "A\\B@c\\alice@d\\bob.x@e@f" = .ok () ∧
      normalizeLocalAccountName "A\\B@c\\alice@d\\bob.x@e@f" = "bob.x" ∧
      Server.normalizeLocalAccountName "A\\B@c\\alice@d\\bob.x@e@f" = "bob.x" := by
  have hvalid : validateUsername Char.isAlphanum "A\\B@c\\alice@d\\bob.x@e@f" = .ok () := by
    decide +kernel
  have haccount : normalizeLocalAccountName "A\\B@c\\alice@d\\bob.x@e@f" = "bob.x" := by
    decide +kernel
  have hsame := normalizeLocalAccountName_of_validated _ _ hvalid
  exact ⟨hvalid, haccount, hsame.2.2.2.2.2.1.trans haccount⟩

end Auth

end Cheirizo
