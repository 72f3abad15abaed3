import Syscape.Memory
import Syscape.Lib.Calls
import Syscape.Lib.Paging
import Mathlib.Algebra.Order.BigOperators.Group.List

/-!
# Swap space on HP-UX

`swap_status` asks `pstat_getswap` for at most sixteen swap entries at a time, each time from
the index behind the last entry it has got, and adds up the sizes and the free pages of the
enabled ones. The sums are checked one product and one addition after the other.
-/
namespace Syscape.Memory.Hpux
open Calls Checked Paging

section Query

/-- `EPERM`. -/
def eperm : ℤ := 1

/-- What the query reads of `struct pst_static`. -/
structure PstStatic where
  pageSize : Int64 := 0
  deriving DecidableEq, Repr

/-- What the query reads of `struct pst_swapinfo`. -/
structure PstSwapinfo where
  pssIdx : UInt64 := 0
  pssFlags : UInt64 := 0
  pssNfpgs : UInt64 := 0
  pssNblksenabled : UInt64 := 0
  pssLimit : UInt64 := 0
  pssSwapchunk : UInt64 := 0
  deriving DecidableEq, Repr

/-- The flags in `<sys/pstat.h>`, if it has them. -/
structure SwapFlags where
  swEnabled : Option UInt64
  swFs : Option UInt64
  deriving DecidableEq, Repr

/-- The result of `pstat_getstatic`, `errno` and the record. -/
structure StaticReply where
  count : ℤ
  errno : ℤ
  pst : PstStatic
  deriving DecidableEq, Repr

/-- The result of `pstat_getswap`, `errno` and the records. -/
structure SwapReply where
  count : ℤ
  errno : ℤ
  psw : Vector PstSwapinfo 16
  deriving DecidableEq, Repr

/-- The system calls of the query. -/
inductive Call where
  | getstatic
  | getswap (index : ℕ)

def Answer : Call → Type
  | .getstatic => StaticReply
  | .getswap _ => SwapReply

abbrev Query (α : Type) := Prog Call Answer α

def pstatGetstatic : Query StaticReply := invoke Call.getstatic

def pstatGetswap (index : ℕ) : Query SwapReply := invoke (Call.getswap index)

/-- The error for a call that failed, with the one for a call that tells no reason. -/
def callError {α : Type} (errno : ℤ) (unexplained : Errc) : Result α :=
  if errno = eacces ∨ errno = eperm then fail .permissionDenied
  else if errno ≠ 0 then failErrno errno
  else fail unexplained

/-- Whether an entry is counted. -/
def SwapFlags.enabled (flags : SwapFlags) (psw : PstSwapinfo) : Bool :=
  match flags.swEnabled with
  | some mask => psw.pssFlags &&& mask ≠ 0
  | none => true

/-- Whether an entry stands for swap in a file system. -/
def SwapFlags.inFileSystem (flags : SwapFlags) (psw : PstSwapinfo) : Bool :=
  match flags.swFs with
  | some mask => psw.pssFlags &&& mask ≠ 0
  | none => false

/-- `dev_total` of an entry. -/
def devTotal (flags : SwapFlags) (psw : PstSwapinfo) : Result UInt64 :=
  if flags.inFileSystem psw then
    if psw.pssLimit > 0 ∧ psw.pssSwapchunk > maxUInt64 / psw.pssLimit then fail .valueTooLarge
    else
      let product1 := psw.pssLimit * psw.pssSwapchunk
      if product1 > maxUInt64 / 1024 then fail .valueTooLarge else .ok (product1 * 1024)
  else if psw.pssNblksenabled > maxUInt64 / 1024 then fail .valueTooLarge
  else .ok (psw.pssNblksenabled * 1024)

/-- The body of the loop over the entries of a reply. -/
def addEntry (flags : SwapFlags) (pageSize : UInt64) (usage : SwapUsage) (psw : PstSwapinfo) :
    Result SwapUsage :=
  if !flags.enabled psw then .ok usage
  else do
    let size ← devTotal flags psw
    if maxUInt64 - usage.totalBytes < size then fail .valueTooLarge
    else if psw.pssNfpgs > maxUInt64 / pageSize then fail .valueTooLarge
    else
      let devFree := psw.pssNfpgs * pageSize
      if maxUInt64 - usage.freeBytes < devFree then fail .valueTooLarge
      else .ok ⟨usage.totalBytes + size, usage.freeBytes + devFree⟩

/-- `std::numeric_limits<int>::max()`. -/
def intMax : ℕ := 2 ^ 31 - 1

/-- The sums and the index for the next call. -/
structure Walk where
  usage : SwapUsage := {}
  index : ℕ := 0
  deriving DecidableEq, Repr

/-- The entries of a reply, whose number has been checked. -/
def addReply (flags : SwapFlags) (pageSize : UInt64) (s : Walk) (psw : List PstSwapinfo)
    (count : ℕ) : Result Walk := do
  let entries ← slice psw 0 count
  let usage ← entries.foldlM (addEntry flags pageSize) s.usage
  let last ← read psw (count - 1)
  if last.pssIdx.toNat < s.index then fail .malformedData
  else if last.pssIdx.toNat ≥ intMax then fail .valueTooLarge
  else .ok ⟨usage, last.pssIdx.toNat + 1⟩

/-- What the loop makes of a reply. -/
def afterReply (flags : SwapFlags) (pageSize : UInt64) (s : Walk) (reply : SwapReply) :
    Walk ⊕ Result SwapUsage :=
  if reply.count < 0 then .inr (callError reply.errno .ioError)
  else if reply.count = 0 then .inr (.ok s.usage)
  else if reply.count > 16 then .inr (fail .malformedData)
  else
    match addReply flags pageSize s reply.psw.toList reply.count.toNat with
    | .ok s => .inl s
    | .error e => .inr (.error e)

/-- The body of the loop. -/
def walkStep (flags : SwapFlags) (pageSize : UInt64) (s : Walk) :
    Query (Walk ⊕ Result SwapUsage) := do
  let reply ← pstatGetswap s.index
  return afterReply flags pageSize s reply

/-- `swap_status`. -/
def swapStatus (flags : SwapFlags) : Query (Result SwapUsage) := do
  let reply ← pstatGetstatic
  if reply.count < 0 then return callError reply.errno .notSupported
  else if reply.count = 0 then return fail .temporarilyUnavailable
  else if reply.count ≠ 1 then return fail .malformedData
  else if reply.pst.pageSize ≤ 0 then return fail .malformedData
  else iterate (walkStep flags reply.pst.pageSize.toUInt64) {}

end Query

section Termination
variable {flags : SwapFlags} {pageSize : UInt64} {s s' : Walk} {reply : SwapReply}

/-- The index grows, and stays an `int`. -/
theorem index_lt_of_addReply {psw : List PstSwapinfo} {count : ℕ}
    (h : addReply flags pageSize s psw count = .ok s') : s.index < s'.index ∧ s'.index ≤ intMax := by
  obtain ⟨entries, -, h⟩ := bind_eq_ok.mp h
  obtain ⟨usage, -, h⟩ := bind_eq_ok.mp h
  obtain ⟨last, -, h⟩ := bind_eq_ok.mp h
  obtain ⟨hindex, h⟩ := guard_eq_ok.mp h
  obtain ⟨hmax, h⟩ := guard_eq_ok.mp h
  cases h
  dsimp only
  omega

theorem index_lt_of_afterReply (h : afterReply flags pageSize s reply = .inl s') :
    s.index < s'.index ∧ s'.index ≤ intMax := by
  unfold afterReply at h
  split_ifs at h
  split at h
  · next s'' hreply =>
    cases h
    exact index_lt_of_addReply hreply
  · cases h

/-- A system that answers the calls in any way. -/
def anyReplies : System Call Answer Unit where
  interferes _ _ := False
  answers _ _ _ _ := True

theorem ensures_anyReplies (flags : SwapFlags) :
    Ensures anyReplies (swapStatus flags) (fun _ _ => True) () := by
  rw [swapStatus]
  apply ensures_invoke
  intro _ _
  refine ⟨⟨⟨0, 0, {}⟩, (), trivial⟩, fun reply _ _ => ?_⟩
  split_ifs
  · exact ensures_pure fun _ _ => trivial
  · exact ensures_pure fun _ _ => trivial
  · exact ensures_pure fun _ _ => trivial
  · exact ensures_pure fun _ _ => trivial
  -- what is left of the indices becomes less with every reply
  apply ensures_iterate (fun _ _ => True) (fun s _ => intMax - s.index) trivial
  · exact fun _ _ _ _ h => h.elim
  · intro s _ _
    rw [walkStep]
    apply ensures_invoke
    intro _ _
    refine ⟨⟨⟨0, 0, Vector.replicate 16 {}⟩, (), trivial⟩, fun reply _ _ => ?_⟩
    refine ensures_pure fun _ _ => ?_
    cases hreply : afterReply flags _ s reply with
    | inl s' =>
      have hindex := index_lt_of_afterReply hreply
      exact ⟨trivial, show intMax - s'.index < intMax - s.index by omega⟩
    | inr r => trivial
  · exact fun _ _ _ _ _ => trivial

end Termination

section Sums
variable {a b : UInt64}

theorem ite_of_iff_not {α : Type} {c d : Prop} [Decidable c] [Decidable d] (h : c ↔ ¬ d)
    (x y : α) : (if c then x else y) = if d then y else x := by
  by_cases hd : d
  · rw [if_pos hd, if_neg (by simpa [h] using hd)]
  · rw [if_neg hd, if_pos (h.mpr hd)]

/-- The guard of a product. -/
theorem guard_product {α : Type} (ha : 0 < a.toNat) (x : Result α) :
    (if b > maxUInt64 / a then fail .valueTooLarge else x) =
      if b.toNat * a.toNat ≤ 2 ^ 64 - 1 then x else fail .valueTooLarge := by
  apply ite_of_iff_not
  rw [gt_iff_lt, UInt64.lt_iff_toNat_lt, UInt64.toNat_div, Nat.div_lt_iff_lt_mul ha, not_le]
  rfl

/-- The guard of a sum. -/
theorem guard_sum {α : Type} (x : Result α) :
    (if maxUInt64 - a < b then fail .valueTooLarge else x) =
      if a.toNat + b.toNat ≤ 2 ^ 64 - 1 then x else fail .valueTooLarge := by
  apply ite_of_iff_not
  rw [maxUInt64_sub_lt_iff, not_le]

theorem toNat_mul_of_le (h : a.toNat * b.toNat ≤ 2 ^ 64 - 1) :
    (a * b).toNat = a.toNat * b.toNat := by
  rw [UInt64.toNat_mul, Nat.mod_eq_of_lt (by omega)]

theorem toNat_ofNat_of_le {n : ℕ} (h : n ≤ 2 ^ 64 - 1) : (UInt64.ofNat n).toNat = n := by
  rw [UInt64.toNat_ofNat', Nat.mod_eq_of_lt (by omega)]

/-- The size of a device, computed without bounds. -/
def SwapFlags.deviceSize (flags : SwapFlags) (psw : PstSwapinfo) : ℕ :=
  if flags.inFileSystem psw then psw.pssLimit.toNat * psw.pssSwapchunk.toNat * 1024
  else psw.pssNblksenabled.toNat * 1024

/-- The free bytes of a device, computed without bounds. -/
def freeSize (pageSize : ℕ) (psw : PstSwapinfo) : ℕ := psw.pssNfpgs.toNat * pageSize

/-- The last product of a size. -/
theorem timesBlock_eq (a : UInt64) :
    (if a > maxUInt64 / 1024 then fail .valueTooLarge else .ok (a * 1024) : Result UInt64) =
      if a.toNat * 1024 ≤ 2 ^ 64 - 1 then .ok (.ofNat (a.toNat * 1024)) else fail .valueTooLarge := by
  have hvalue : a * 1024 = .ofNat (a.toNat * 1024) := by
    rw [UInt64.ofNat_mul, UInt64.ofNat_toNat]
    rfl
  rw [guard_product (by decide), hvalue]
  rfl

/-- The size of a device is exact, or it is refused. -/
theorem devTotal_eq (flags : SwapFlags) (psw : PstSwapinfo) :
    devTotal flags psw =
      if flags.deviceSize psw ≤ 2 ^ 64 - 1 then .ok (.ofNat (flags.deviceSize psw))
      else fail .valueTooLarge := by
  rw [devTotal, SwapFlags.deviceSize]
  by_cases hfs : flags.inFileSystem psw = true
  · rw [if_pos hfs, if_pos hfs]
    rcases Nat.eq_zero_or_pos psw.pssLimit.toNat with hzero | hpos
    · -- the guard does not divide by a limit of zero
      have hlimit : psw.pssLimit = 0 := UInt64.toNat_inj.mp hzero
      rw [hlimit, if_neg (by simp)]
      dsimp only
      rw [timesBlock_eq, toNat_mul_of_le (by simp)]
    · have hlimit : psw.pssLimit > 0 := UInt64.lt_iff_toNat_lt.mpr hpos
      simp only [hlimit, true_and]
      rw [guard_product hpos, Nat.mul_comm psw.pssSwapchunk.toNat]
      by_cases hproduct : psw.pssLimit.toNat * psw.pssSwapchunk.toNat ≤ 2 ^ 64 - 1
      · rw [if_pos hproduct, timesBlock_eq, toNat_mul_of_le hproduct]
      · rw [if_neg hproduct, if_neg (by omega)]
  · rw [if_neg hfs, if_neg hfs]
    exact timesBlock_eq _

/-- The total size of the enabled entries. -/
def exactTotal (flags : SwapFlags) (entries : List PstSwapinfo) : ℕ :=
  ((entries.filter flags.enabled).map flags.deviceSize).sum

/-- The free bytes of the enabled entries. -/
def exactFree (flags : SwapFlags) (pageSize : ℕ) (entries : List PstSwapinfo) : ℕ :=
  ((entries.filter flags.enabled).map (freeSize pageSize)).sum

theorem exactTotal_append (flags : SwapFlags) (front back : List PstSwapinfo) :
    exactTotal flags (front ++ back) = exactTotal flags front + exactTotal flags back := by
  rw [exactTotal, List.filter_append, List.map_append, List.sum_append]
  rfl

theorem exactFree_append (flags : SwapFlags) (pageSize : ℕ) (front back : List PstSwapinfo) :
    exactFree flags pageSize (front ++ back) =
      exactFree flags pageSize front + exactFree flags pageSize back := by
  rw [exactFree, List.filter_append, List.map_append, List.sum_append]
  rfl

/-- Both sums have at most 64 bits when these entries are added. -/
def Fits (flags : SwapFlags) (pageSize : ℕ) (usage : SwapUsage) (entries : List PstSwapinfo) :
    Prop :=
  usage.totalBytes.toNat + exactTotal flags entries ≤ 2 ^ 64 - 1 ∧
    usage.freeBytes.toNat + exactFree flags pageSize entries ≤ 2 ^ 64 - 1

instance (flags : SwapFlags) (pageSize : ℕ) (usage : SwapUsage) (entries : List PstSwapinfo) :
    Decidable (Fits flags pageSize usage entries) :=
  inferInstanceAs (Decidable (_ ∧ _))

/-- The sums with these entries. -/
def plus (flags : SwapFlags) (pageSize : ℕ) (usage : SwapUsage) (entries : List PstSwapinfo) :
    SwapUsage :=
  ⟨.ofNat (usage.totalBytes.toNat + exactTotal flags entries),
    .ofNat (usage.freeBytes.toNat + exactFree flags pageSize entries)⟩

variable {flags : SwapFlags} {pageSize : UInt64}

theorem toNat_plus {pageSize : ℕ} {usage : SwapUsage} {entries : List PstSwapinfo}
    (h : Fits flags pageSize usage entries) :
    (plus flags pageSize usage entries).totalBytes.toNat =
        usage.totalBytes.toNat + exactTotal flags entries ∧
      (plus flags pageSize usage entries).freeBytes.toNat =
        usage.freeBytes.toNat + exactFree flags pageSize entries := by
  obtain ⟨htotal, hfree⟩ := h
  exact ⟨toNat_ofNat_of_le htotal, toNat_ofNat_of_le hfree⟩

/-- One entry is added exactly, or it is refused. -/
theorem addEntry_eq (hpage : 0 < pageSize.toNat) (usage : SwapUsage) (psw : PstSwapinfo) :
    addEntry flags pageSize usage psw =
      if Fits flags pageSize.toNat usage [psw] then .ok (plus flags pageSize.toNat usage [psw])
      else fail .valueTooLarge := by
  rw [addEntry]
  by_cases henabled : flags.enabled psw = true
  · have htotal : exactTotal flags [psw] = flags.deviceSize psw := by
      simp [exactTotal, henabled]
    have hfree : exactFree flags pageSize.toNat [psw] = psw.pssNfpgs.toNat * pageSize.toNat := by
      simp [exactFree, freeSize, henabled]
    have hiff : Fits flags pageSize.toNat usage [psw] ↔
        usage.totalBytes.toNat + flags.deviceSize psw ≤ 2 ^ 64 - 1 ∧
          usage.freeBytes.toNat + psw.pssNfpgs.toNat * pageSize.toNat ≤ 2 ^ 64 - 1 := by
      rw [Fits, htotal, hfree]
    rw [if_neg (by simp [henabled]), devTotal_eq]
    by_cases hsize : flags.deviceSize psw ≤ 2 ^ 64 - 1
    · rw [if_pos hsize, ok_bind, guard_sum, toNat_ofNat_of_le hsize, guard_product hpage]
      by_cases hpages : psw.pssNfpgs.toNat * pageSize.toNat ≤ 2 ^ 64 - 1
      · have hvalue : (⟨usage.totalBytes + .ofNat (flags.deviceSize psw),
            usage.freeBytes + psw.pssNfpgs * pageSize⟩ : SwapUsage) =
              plus flags pageSize.toNat usage [psw] := by
          rw [plus, htotal, hfree, UInt64.ofNat_add, UInt64.ofNat_add, UInt64.ofNat_mul,
            UInt64.ofNat_toNat, UInt64.ofNat_toNat, UInt64.ofNat_toNat, UInt64.ofNat_toNat]
        rw [if_pos hpages, guard_sum, toNat_mul_of_le hpages, hvalue]
        simp only [hiff]
        by_cases htotalFits : usage.totalBytes.toNat + flags.deviceSize psw ≤ 2 ^ 64 - 1
        · rw [if_pos htotalFits]
          simp only [htotalFits, true_and]
        · rw [if_neg htotalFits, if_neg fun hfits => htotalFits hfits.1]
      · rw [if_neg hpages, ite_self, if_neg (by rw [hiff]; omega)]
    · rw [if_neg hsize, fail_bind, if_neg (by rw [hiff]; omega)]
  · have htotal : exactTotal flags [psw] = 0 := by simp [exactTotal, henabled]
    have hfree : exactFree flags pageSize.toNat [psw] = 0 := by simp [exactFree, henabled]
    have hfits : Fits flags pageSize.toNat usage [psw] := by
      have hlt := usage.totalBytes.toNat_lt
      have hlt' := usage.freeBytes.toNat_lt
      exact ⟨by omega, by omega⟩
    rw [if_pos (by simpa using henabled), if_pos hfits, plus, htotal, hfree]
    simp

/-- The entries are added exactly, or one of them is refused. -/
theorem foldlM_addEntry (hpage : 0 < pageSize.toNat) (entries : List PstSwapinfo)
    (usage : SwapUsage) :
    entries.foldlM (addEntry flags pageSize) usage =
      if Fits flags pageSize.toNat usage entries then .ok (plus flags pageSize.toNat usage entries)
      else fail .valueTooLarge := by
  induction entries generalizing usage with
  | nil =>
    have hfits : Fits flags pageSize.toNat usage [] := by
      have hlt := usage.totalBytes.toNat_lt
      have hlt' := usage.freeBytes.toNat_lt
      exact ⟨show usage.totalBytes.toNat ≤ _ by omega, show usage.freeBytes.toNat ≤ _ by omega⟩
    rw [if_pos hfits, plus]
    simp [exactTotal, exactFree]
  | cons psw entries ih =>
    have htotal := exactTotal_append flags [psw] entries
    have hfree := exactFree_append flags pageSize.toNat [psw] entries
    rw [List.singleton_append] at htotal hfree
    rw [List.foldlM_cons, addEntry_eq hpage]
    by_cases hhead : Fits flags pageSize.toNat usage [psw]
    · obtain ⟨hplusTotal, hplusFree⟩ := toNat_plus hhead
      rw [if_pos hhead, ok_bind, ih]
      have hiff : Fits flags pageSize.toNat (plus flags pageSize.toNat usage [psw]) entries ↔
          Fits flags pageSize.toNat usage (psw :: entries) := by
        rw [Fits, Fits, hplusTotal, hplusFree, htotal, hfree, Nat.add_assoc, Nat.add_assoc]
      simp only [hiff]
      rw [plus, hplusTotal, hplusFree, plus, htotal, hfree, Nat.add_assoc, Nat.add_assoc]
    · have hfits : ¬ Fits flags pageSize.toNat usage (psw :: entries) := by
        rintro ⟨hle, hle'⟩
        exact hhead ⟨by omega, by omega⟩
      rw [if_neg hhead, fail_bind, if_neg hfits]

end Sums

section Walks
variable {flags : SwapFlags} {entries : List PstSwapinfo} {pageSize : Int64} {s : Walk}

/-- The index of an entry. -/
def PstSwapinfo.key (psw : PstSwapinfo) : ℕ := psw.pssIdx.toNat

/-- The indices grow strictly and stay below the largest `int`. -/
def Listed (entries : List PstSwapinfo) : Prop :=
  Increasing PstSwapinfo.key entries ∧ ∀ psw ∈ entries, psw.key < intMax

/-- A reply with a run of the entries from the index on, which is empty only if there are none,
and has at most sixteen. -/
def Serves (entries : List PstSwapinfo) (index : ℕ) (reply : SwapReply) : Prop :=
  if fromKey PstSwapinfo.key entries index = [] then reply.count = 0
  else ∃ n : ℕ, 0 < n ∧ n ≤ 16 ∧ reply.count = n ∧
    reply.psw.toList.take n <+: fromKey PstSwapinfo.key entries index

/-- A system with these entries, which serves them in any runs. -/
def serving (entries : List PstSwapinfo) (pageSize : Int64) : System Call Answer Unit where
  interferes _ _ := False
  answers _ c r _ :=
    match c, r with
    | .getstatic, r => r.count = 1 ∧ r.pst.pageSize = pageSize
    | .getswap index, r => Serves entries index r

/-- One of the products or of the running sums exceeds 64 bits. -/
def Exceeds (flags : SwapFlags) (pageSize : ℕ) (entries : List PstSwapinfo) : Prop :=
  (∃ psw ∈ entries.filter flags.enabled,
    2 ^ 64 - 1 < flags.deviceSize psw ∨ 2 ^ 64 - 1 < freeSize pageSize psw) ∨
  ∃ front, front <+: entries.filter flags.enabled ∧
    (2 ^ 64 - 1 < (front.map flags.deviceSize).sum ∨
      2 ^ 64 - 1 < (front.map (freeSize pageSize)).sum)

/-- The exact sums, or `value_too_large` exactly where one of them exceeds 64 bits. -/
def ExactOrTooLarge (flags : SwapFlags) (pageSize : ℕ) (entries : List PstSwapinfo)
    (r : Result SwapUsage) : Prop :=
  (Exceeds flags pageSize entries ∧ r = fail .valueTooLarge) ∨
  (¬ Exceeds flags pageSize entries ∧ ∃ usage, r = .ok usage ∧
    usage.totalBytes.toNat = exactTotal flags entries ∧
    usage.freeBytes.toNat = exactFree flags pageSize entries)

theorem exists_serves (entries : List PstSwapinfo) (index : ℕ) :
    ∃ reply, Serves entries index reply := by
  cases hleft : fromKey PstSwapinfo.key entries index with
  | nil => exact ⟨⟨0, 0, Vector.replicate 16 {}⟩, by rw [Serves, if_pos hleft]⟩
  | cons psw rest =>
    refine ⟨⟨1, 0, Vector.replicate 16 psw⟩, ?_⟩
    rw [Serves, if_neg (by simp [hleft]), hleft]
    exact ⟨1, by decide, by decide, rfl, rest, rfl⟩

/-- The products and the running sums do not exceed the sums of all entries. -/
theorem exceeds_iff (flags : SwapFlags) (pageSize : ℕ) (entries : List PstSwapinfo) :
    Exceeds flags pageSize entries ↔
      2 ^ 64 - 1 < exactTotal flags entries ∨ 2 ^ 64 - 1 < exactFree flags pageSize entries := by
  constructor
  · rintro (⟨psw, hpsw, h⟩ | ⟨front, ⟨back, hback⟩, h⟩)
    · have htotal : flags.deviceSize psw ≤ exactTotal flags entries :=
        List.le_sum_of_mem (List.mem_map_of_mem hpsw)
      have hfree : freeSize pageSize psw ≤ exactFree flags pageSize entries :=
        List.le_sum_of_mem (List.mem_map_of_mem hpsw)
      omega
    · have htotal : exactTotal flags entries =
          (front.map flags.deviceSize).sum + (back.map flags.deviceSize).sum := by
        rw [exactTotal, ← hback, List.map_append, List.sum_append]
      have hfree : exactFree flags pageSize entries =
          (front.map (freeSize pageSize)).sum + (back.map (freeSize pageSize)).sum := by
        rw [exactFree, ← hback, List.map_append, List.sum_append]
      omega
  · intro h
    exact .inr ⟨_, List.prefix_rfl, h⟩

/-- What has been added and what is still to come are the sums of all entries. -/
structure Counted (flags : SwapFlags) (pageSize : ℕ) (entries : List PstSwapinfo) (s : Walk) :
    Prop where
  index_le : s.index ≤ intMax
  total : s.usage.totalBytes.toNat +
    exactTotal flags (fromKey PstSwapinfo.key entries s.index) = exactTotal flags entries
  free : s.usage.freeBytes.toNat +
    exactFree flags pageSize (fromKey PstSwapinfo.key entries s.index) =
      exactFree flags pageSize entries

theorem counted_start (flags : SwapFlags) (pageSize : ℕ) (entries : List PstSwapinfo) :
    Counted flags pageSize entries {} where
  index_le := Nat.zero_le _
  total := by simp
  free := by simp

/-- Nothing is left. -/
theorem Counted.exact {pageSize : ℕ} (h : Counted flags pageSize entries s)
    (hnone : fromKey PstSwapinfo.key entries s.index = []) :
    ExactOrTooLarge flags pageSize entries (.ok s.usage) := by
  have htotal := h.total
  have hfree := h.free
  rw [hnone, show exactTotal flags [] = 0 from rfl] at htotal
  rw [hnone, show exactFree flags pageSize [] = 0 from rfl] at hfree
  have hlt := s.usage.totalBytes.toNat_lt
  have hlt' := s.usage.freeBytes.toNat_lt
  refine .inr ⟨?_, s.usage, rfl, htotal, hfree⟩
  rw [exceeds_iff]
  omega

/-- The last of the first entries of the buffer. -/
theorem read_last {psw : List PstSwapinfo} {n : ℕ} (hlength : n ≤ psw.length)
    (hne : psw.take n ≠ []) :
    (read psw (n - 1) : Result PstSwapinfo) = .ok ((psw.take n).getLast hne) := by
  have hn : 0 < n := by
    by_contra hzero
    exact hne (by rw [Nat.eq_zero_of_not_pos hzero, List.take_zero])
  rw [read_of_lt (by omega), List.getLast_eq_getElem]
  simp only [List.length_take, Nat.min_eq_left hlength, List.getElem_take]

/-- A run is refused, and then a sum exceeds 64 bits, or it is counted. -/
theorem addReply_run {pageSize : UInt64} (hlisted : Listed entries) (hpage : 0 < pageSize.toNat)
    (h : Counted flags pageSize.toNat entries s) {psw : List PstSwapinfo} {n : ℕ} (hn : 0 < n)
    (hlength : n ≤ psw.length) (hrun : psw.take n <+: fromKey PstSwapinfo.key entries s.index) :
    (addReply flags pageSize s psw n = fail .valueTooLarge ∧
      Exceeds flags pageSize.toNat entries) ∨
    ∃ s', addReply flags pageSize s psw n = .ok s' ∧ Counted flags pageSize.toNat entries s' := by
  obtain ⟨rest, hrest⟩ := hrun
  have hrest := hrest.symm
  have htotal := h.total
  have hfree := h.free
  rw [hrest, exactTotal_append] at htotal
  rw [hrest, exactFree_append] at hfree
  have hslice : (slice psw 0 n : Result (List PstSwapinfo)) = .ok (psw.take n) := by
    rw [slice_of_le (by omega), List.drop_zero]
  rw [addReply, hslice, ok_bind, foldlM_addEntry hpage]
  by_cases hfits : Fits flags pageSize.toNat s.usage (psw.take n)
  · right
    have hne : psw.take n ≠ [] := by
      rw [ne_eq, ← List.length_eq_zero_iff, List.length_take]
      omega
    have hmem : (psw.take n).getLast hne ∈ fromKey PstSwapinfo.key entries s.index := by
      rw [hrest]
      exact List.mem_append_left rest (List.getLast_mem hne)
    obtain ⟨hentry, hindex⟩ := List.mem_filter.mp hmem
    have hindex : s.index ≤ ((psw.take n).getLast hne).pssIdx.toNat :=
      of_decide_eq_true hindex
    have hmax : ((psw.take n).getLast hne).pssIdx.toNat < intMax := hlisted.2 _ hentry
    have hnext := fromKey_next hlisted.1 hrest hne
    obtain ⟨hplusTotal, hplusFree⟩ := toNat_plus hfits
    rw [if_pos hfits, ok_bind, read_last hlength hne, ok_bind, if_neg (Nat.not_lt.mpr hindex),
      if_neg (Nat.not_le.mpr hmax)]
    refine ⟨_, rfl, Nat.succ_le_of_lt hmax, ?_, ?_⟩
    · rw [← htotal, hplusTotal, Nat.add_assoc]
      exact congrArg _ (congrArg _ (congrArg _ hnext))
    · rw [← hfree, hplusFree, Nat.add_assoc]
      exact congrArg _ (congrArg _ (congrArg _ hnext))
  · left
    rw [if_neg hfits, fail_bind, exceeds_iff]
    refine ⟨rfl, ?_⟩
    rw [Fits] at hfits
    omega

/-- A reply of the system is counted, or the walk ends with the right result. -/
theorem afterReply_serves {pageSize : UInt64} (hlisted : Listed entries)
    (hpage : 0 < pageSize.toNat) (h : Counted flags pageSize.toNat entries s) {reply : SwapReply}
    (hreply : Serves entries s.index reply) :
    (∃ r, afterReply flags pageSize s reply = .inr r ∧
      ExactOrTooLarge flags pageSize.toNat entries r) ∨
    ∃ s', afterReply flags pageSize s reply = .inl s' ∧
      Counted flags pageSize.toNat entries s' := by
  by_cases hnone : fromKey PstSwapinfo.key entries s.index = []
  · rw [Serves, if_pos hnone] at hreply
    rw [afterReply, if_neg (by omega), if_pos hreply]
    exact .inl ⟨_, rfl, h.exact hnone⟩
  · rw [Serves, if_neg hnone] at hreply
    obtain ⟨n, hn, hmax, hcount, hrun⟩ := hreply
    have hlength : n ≤ reply.psw.toList.length := by rwa [Vector.length_toList]
    rw [afterReply, if_neg (by omega), if_neg (by omega), if_neg (by omega), hcount,
      Int.toNat_natCast]
    rcases addReply_run hlisted hpage h hn hlength hrun with ⟨hresult, hexceeds⟩ | ⟨s', hresult, h⟩
    · rw [hresult]
      exact .inl ⟨_, rfl, .inl ⟨hexceeds, rfl⟩⟩
    · rw [hresult]
      exact .inr ⟨s', rfl, h⟩

theorem ensures_walk {page : UInt64} (hlisted : Listed entries) (hpage : 0 < page.toNat) :
    Ensures (serving entries pageSize) (iterate (walkStep flags page) {})
      (fun r _ => ExactOrTooLarge flags page.toNat entries r) () := by
  apply ensures_iterate (fun s _ => Counted flags page.toNat entries s)
    (fun s _ => intMax - s.index) (counted_start flags page.toNat entries)
  · exact fun _ _ _ _ h => h.elim
  · intro s _ hs
    rw [walkStep]
    apply ensures_invoke
    intro _ _
    obtain ⟨reply, hreply⟩ := exists_serves entries s.index
    refine ⟨⟨reply, (), hreply⟩, fun reply _ hreply => ?_⟩
    refine ensures_pure fun _ _ => ?_
    rcases afterReply_serves hlisted hpage hs hreply with ⟨r, hr, hexact⟩ | ⟨s', hs', hcounted⟩
    · rw [hr]
      exact hexact
    · have hindex := index_lt_of_afterReply hs'
      rw [hs']
      exact ⟨hcounted, show intMax - s'.index < intMax - s.index by omega⟩
  · exact fun _ _ _ h _ => h

theorem ensures_serving (flags : SwapFlags) (hlisted : Listed entries) (hpage : 0 < pageSize) :
    Ensures (serving entries pageSize) (swapStatus flags)
      (fun r _ => ExactOrTooLarge flags pageSize.toInt.toNat entries r) () := by
  rw [swapStatus]
  apply ensures_invoke
  intro _ _
  refine ⟨⟨⟨1, 0, ⟨pageSize⟩⟩, (), rfl, rfl⟩, fun reply _ hreply => ?_⟩
  obtain ⟨hcount, hsize⟩ : reply.count = 1 ∧ reply.pst.pageSize = pageSize := hreply
  have hnat : pageSize.toUInt64.toNat = pageSize.toInt.toNat :=
    Int64.toNat_toUInt64_of_le (Int64.le_of_lt hpage)
  have hpos : 0 < pageSize.toInt := Int64.lt_iff_toInt_lt.mp hpage
  rw [if_neg (by omega), if_neg (by omega), if_neg (by omega),
    if_neg (by rw [hsize]; exact Int64.not_le.mpr hpage), hsize, ← hnat]
  exact ensures_walk hlisted (by omega)

/-- The walk ends whatever the replies are. With a list of entries, its result is exact in
whatever runs they are served. -/
theorem swap_walk_exact (flags : SwapFlags) :
    Terminates anyReplies ((), swapStatus flags) ∧
      ∀ (entries : List PstSwapinfo) (pageSize : Int64), Listed entries → 0 < pageSize →
        Terminates (serving entries pageSize) ((), swapStatus flags) ∧
        ∀ y, Runs (serving entries pageSize) ((), swapStatus flags) y →
          (∃ r, y.2 = .done r ∧ ExactOrTooLarge flags pageSize.toInt.toNat entries r) ∨
          ∃ z, Advance (serving entries pageSize) y z := by
  have hwf : WellFounded fun _ _ : Unit => False := ⟨fun _ => ⟨_, fun _ h => h.elim⟩⟩
  refine ⟨(ensures_sound hwf (ensures_anyReplies flags)).1, fun entries pageSize hlisted hpage => ?_⟩
  exact ensures_sound hwf (ensures_serving flags hlisted hpage)

/-- A device, a file system and a device that is not enabled. -/
def threeEntries : List PstSwapinfo :=
  [{ pssIdx := 0, pssFlags := 1, pssNfpgs := 3, pssNblksenabled := 10 },
    { pssIdx := 4, pssFlags := 3, pssNfpgs := 2, pssLimit := 5, pssSwapchunk := 6 },
    { pssIdx := 7, pssFlags := 2, pssNfpgs := 9, pssLimit := 8, pssSwapchunk := 1 }]

theorem listed_threeEntries : Listed threeEntries :=
  ⟨by simp [Increasing, threeEntries, PstSwapinfo.key], by decide⟩

/-- In one reply, in two or in three. -/
theorem three_entries_summed : ∀ r : Result SwapUsage,
    Runs (serving threeEntries 4096) ((), swapStatus ⟨some 1, some 2⟩) ((), .done r) →
      r = .ok ⟨40960, 20480⟩ := by
  intro r hruns
  have hexact := (swap_walk_exact ⟨some 1, some 2⟩).2 threeEntries 4096 listed_threeEntries
    (by decide)
  rcases hexact.2 _ hruns with ⟨r', hr, hresult⟩ | ⟨z, hz⟩
  · cases hr
    rcases hresult with ⟨hexceeds, -⟩ | ⟨-, usage, rfl, htotal, hfree⟩
    · rw [exceeds_iff] at hexceeds
      exact absurd hexceeds (by decide)
    · have htotal' : usage.totalBytes = 40960 := UInt64.toNat_inj.mp htotal
      have hfree' : usage.freeBytes = 20480 := UInt64.toNat_inj.mp hfree
      rw [← htotal', ← hfree']
  · cases hz

end Walks

end Syscape.Memory.Hpux
