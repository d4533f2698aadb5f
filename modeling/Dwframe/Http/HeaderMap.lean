import Dwframe.Http.Session
import Dwframe.Lib.Lines
import Mathlib.Data.List.Induction
import Mathlib.Data.List.Lex

/-!
# The header map

`m_headers` is ordered by `strcasecmp`, which reads two keys up to a NUL and without regard to
case: it compares their `cString`. Requests and responses print the entries one line each, in the
order of the map, with lines of their own around them.
-/
open Dwframe.Lib

namespace Dwframe.Http

/-! ### The order of the keys -/

/-- What `strcasecmp` reads of a key. -/
def cString (s : Bytes) : List Nat := (s.takeWhile (· ≠ 0)).map fun b => (toLower b).toNat

theorem toLower_eq_zero {b : UInt8} : toLower b = 0 ↔ b = 0 := by
  unfold toLower
  split
  next upper =>
    rw [← UInt8.toNat_inj, ← UInt8.toNat_inj, UInt8.toNat_add]
    simp only [UInt8.le_iff_toNat_le, UInt8.reduceToNat] at upper ⊢
    omega
  next => rfl

private theorem cString_nul (s : Bytes) : cString (0 :: s) = [] := by simp [cString]

private theorem cString_cons {b : UInt8} (more : b ≠ 0) (s : Bytes) :
    cString (b :: s) = (toLower b).toNat :: cString s := by
  simp [cString, more]

theorem caseInsensitiveLess_iff {a : Bytes} : ∀ {b : Bytes},
    caseInsensitiveLess a b = true ↔ cString a < cString b := by
  induction a with
  | nil =>
    intro b
    cases b with
    | nil => simp [caseInsensitiveLess]
    | cons y b =>
      by_cases ends : y = 0
      · subst ends
        simp [caseInsensitiveLess, cString]
      · rw [cString_cons ends]
        simp [caseInsensitiveLess, ends, cString]
  | cons x a ih =>
    intro b
    cases b with
    | nil => simp [caseInsensitiveLess, cString]
    | cons y b =>
      have order : toLower x < toLower y ↔ (toLower x).toNat < (toLower y).toNat :=
        UInt8.lt_iff_toNat_lt
      have same : toLower x = toLower y ↔ (toLower x).toNat = (toLower y).toNat :=
        UInt8.toNat_inj.symm
      have positive : ∀ c, c ≠ 0 → 0 < (toLower c).toNat := by
        intro c more
        rw [Nat.pos_iff_ne_zero, ne_eq, ← UInt8.toNat_zero, UInt8.toNat_inj, toLower_eq_zero]
        exact more
      have nul : (toLower 0).toNat = 0 := rfl
      rw [caseInsensitiveLess]
      -- a zero byte ends the string, whatever stands behind it
      by_cases endsX : x = 0
      · subst endsX
        rw [cString_nul]
        by_cases endsY : y = 0
        · subst endsY
          simp [cString_nul]
        · have above := positive y endsY
          rw [cString_cons endsY]
          simp [order, same, nul, above, Nat.ne_of_lt above]
      · have above := positive x endsX
        rw [cString_cons endsX]
        by_cases endsY : y = 0
        · subst endsY
          simp [cString_nul, order, same, nul, Nat.ne_of_gt above]
        -- both strings go on: the first letters decide, or the rest does
        · rw [cString_cons endsY, List.cons_lt_cons_iff, ← ih]
          split
          next equal => simp [same.mp equal, endsX]
          next differ => simp [order, mt same.mpr differ]

theorem strcasecmpEq_iff {a b : Bytes} : strcasecmpEq a b = true ↔ cString a = cString b := by
  rw [strcasecmpEq, Bool.and_eq_true, Bool.not_eq_true', Bool.not_eq_true', Bool.eq_false_iff,
    Bool.eq_false_iff, ne_eq, ne_eq, caseInsensitiveLess_iff, caseInsensitiveLess_iff]
  constructor
  · rintro ⟨notBelow, notAbove⟩
    exact le_antisymm (not_lt.mp notAbove) (not_lt.mp notBelow)
  · intro same
    rw [same]
    exact ⟨lt_irrefl _, lt_irrefl _⟩

/-- Keys of the same letters are the same key. -/
theorem cString_congr {a : Bytes} : ∀ {b : Bytes}, a.map toLower = b.map toLower →
    cString a = cString b := by
  induction a with
  | nil =>
    intro b same
    obtain rfl : b = [] := by simpa using same.symm
    rfl
  | cons x a ih =>
    intro b same
    cases b with
    | nil => simp at same
    | cons y b =>
      rw [List.map_cons, List.map_cons, List.cons.injEq] at same
      have zero : x = 0 ↔ y = 0 := by rw [← toLower_eq_zero, same.1, toLower_eq_zero]
      by_cases ends : y = 0
      · rw [ends, zero.mpr ends, cString_nul, cString_nul]
      · rw [cString_cons ends, cString_cons (mt zero.mp ends), same.1, ih same.2]

/-! ### Finding an entry -/

private theorem findHeader_cons {key val k : Bytes} {rest : List (Bytes × Bytes)} :
    findHeader ((key, val) :: rest) k =
      if strcasecmpEq key k then some val else findHeader rest k := by
  unfold findHeader
  rw [List.find?_cons]
  cases strcasecmpEq key k <;> rfl

/-- A stored value is found under its key, and nothing else changes. -/
theorem findHeader_setHeader {key val k : Bytes} (headers : List (Bytes × Bytes)) :
    findHeader (setHeader key val headers) k =
      if strcasecmpEq key k then some val else findHeader headers k := by
  induction headers with
  | nil => exact findHeader_cons
  | cons first rest ih =>
    rw [setHeader]
    split
    next before =>
      rw [findHeader_cons, ih, findHeader_cons]
      by_cases found : strcasecmpEq first.1 k = true
      · -- the key found comes before the stored one, so it is another
        have other : ¬ strcasecmpEq key k = true := by
          rw [strcasecmpEq_iff] at found ⊢
          rw [caseInsensitiveLess_iff, found] at before
          exact ne_of_gt before
        rw [if_pos found, if_neg other, if_pos found]
      · rw [if_neg found, if_neg found]
    next notBefore =>
      split
      next behind => exact findHeader_cons
      next notBehind =>
        -- neither key is less, so the value is stored in the entry that is there
        have same : cString first.1 = cString key := by
          rw [← strcasecmpEq_iff, strcasecmpEq]
          simp [notBefore, notBehind]
        have alike : strcasecmpEq first.1 k = strcasecmpEq key k := by
          rw [Bool.eq_iff_iff, strcasecmpEq_iff, strcasecmpEq_iff, same]
        rw [findHeader_cons, findHeader_cons, alike]
        by_cases found : strcasecmpEq key k = true
        · rw [if_pos found, if_pos found]
        · rw [if_neg found, if_neg found, if_neg found]

/-! ### Insertions in order -/

/-- The entries of a map, in the order in which its iterators visit them. -/
def SortedKeys (headers : List (Bytes × Bytes)) : Prop :=
  headers.Pairwise fun a b => caseInsensitiveLess a.1 b.1 = true

/-- Every entry is found under its key. -/
theorem findHeader_of_mem {headers : List (Bytes × Bytes)} {h : Bytes × Bytes}
    (sorted : SortedKeys headers) (member : h ∈ headers) : findHeader headers h.1 = some h.2 := by
  induction headers with
  | nil => cases member
  | cons first rest ih =>
    obtain ⟨below, later⟩ := List.pairwise_cons.mp sorted
    rw [findHeader_cons]
    rcases List.mem_cons.mp member with rfl | behind
    · rw [if_pos (strcasecmpEq_iff.mpr rfl)]
    · have other : ¬ strcasecmpEq first.1 h.1 = true := by
        rw [strcasecmpEq_iff]
        exact ne_of_lt (caseInsensitiveLess_iff.mp (below h behind))
      rw [if_neg other, ih later behind]

/-- A key behind all others is added at the end. -/
theorem setHeader_last {key val : Bytes} {headers : List (Bytes × Bytes)}
    (last : ∀ h ∈ headers, caseInsensitiveLess h.1 key = true) :
    setHeader key val headers = headers ++ [(key, val)] := by
  induction headers with
  | nil => rfl
  | cons first rest ih =>
    rw [setHeader, if_pos (last first List.mem_cons_self),
      ih fun h member => last h (.tail _ member), List.cons_append]

private theorem setHeader_append_last {other last : Bytes × Bytes}
    {headers : List (Bytes × Bytes)}
    (below : ∀ h ∈ headers, caseInsensitiveLess h.1 last.1 = true)
    (apart : ∀ h ∈ headers ++ [last], strcasecmpEq h.1 other.1 = false) :
    setHeader last.1 last.2 (setHeader other.1 other.2 headers) =
      setHeader other.1 other.2 (headers ++ [last]) := by
  have trans : ∀ {a b c : Bytes}, caseInsensitiveLess a b = true →
      caseInsensitiveLess b c = true → caseInsensitiveLess a c = true := by
    intro a b c first second
    rw [caseInsensitiveLess_iff] at first second ⊢
    exact lt_trans first second
  have asymm : ∀ {a b : Bytes}, caseInsensitiveLess a b = true →
      ¬ caseInsensitiveLess b a = true := by
    intro a b first
    rw [caseInsensitiveLess_iff] at first ⊢
    exact lt_asymm first
  -- one of two keys that are not the same comes first
  have either : ∀ h ∈ headers ++ [last], ¬ caseInsensitiveLess h.1 other.1 = true →
      caseInsensitiveLess other.1 h.1 = true := by
    intro h member notBelow
    have differ := apart h member
    simpa [strcasecmpEq, notBelow] using differ
  induction headers with
  | nil =>
    simp only [setHeader, List.nil_append]
    by_cases before : caseInsensitiveLess last.1 other.1 = true
    · rw [if_neg (asymm before), if_pos before, if_pos before]
    · have behind := either last (by simp) before
      rw [if_pos behind, if_neg before, if_pos behind]
  | cons first rest ih =>
    have lower := below first List.mem_cons_self
    have later := ih (fun h member => below h (.tail _ member))
      (fun h member => apart h (.tail _ member)) (fun h member => either h (.tail _ member))
    simp only [setHeader, List.cons_append]
    by_cases before : caseInsensitiveLess first.1 other.1 = true
    · rw [if_pos before, if_pos before, setHeader, if_pos lower, later]
    · have behind := either first List.mem_cons_self before
      rw [if_neg before, if_pos behind, if_neg before, if_pos behind, setHeader,
        if_pos (trans behind lower), setHeader_last below, List.cons_append]

/-- Storing an entry, and then others in their order, is storing it in the map of the others. -/
theorem foldl_setHeader {other : Bytes × Bytes} {headers : List (Bytes × Bytes)}
    (sorted : SortedKeys headers) (apart : ∀ h ∈ headers, strcasecmpEq h.1 other.1 = false) :
    headers.foldl (fun map h => setHeader h.1 h.2 map) [other] =
      setHeader other.1 other.2 headers := by
  induction headers using List.reverseRecOn with
  | nil => rfl
  | append_singleton headers last ih =>
    obtain ⟨before, -, below⟩ := List.pairwise_append.mp sorted
    rw [List.foldl_append, ih before fun h member => apart h (List.mem_append_left _ member),
      List.foldl_cons, List.foldl_nil,
      setHeader_append_last (fun h member => below h member last List.mem_cons_self) apart]

/-! ### Lines -/

/-- The lines of the header map; `connection` is printed on its own. -/
def headerMapLines (websocket : Bool) (headers : List (Bytes × Bytes)) : List Bytes :=
  (headers.filter fun i => !(!websocket && strcasecmpEq i.1 (bytes "connection"))).map fun i =>
    i.1 ++ bytes ": " ++ i.2

def connectionLine (close : Bool) : Bytes :=
  bytes "connection: " ++ (if close then bytes "close" else bytes "keep-alive")

def contentLengthLine (size : Nat) : Bytes := bytes "content-length: " ++ toDecimal size

/-- A version, its major part in the high four bits. -/
def versionText (version : UInt8) : Bytes :=
  bytes "HTTP/" ++ toDecimal (version >>> 4).toNat ++ bytes "." ++
    toDecimal (version &&& 0x0F).toNat

end Dwframe.Http
