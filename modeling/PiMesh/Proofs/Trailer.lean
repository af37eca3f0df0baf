/-
Which lease trailers survive the way to the hook.

The printer writes a task as it is, and the lease table grants almost any text as one.
The regular expression accepts the task ids of a task package, and the hook drops blanks
and stops at the first `#`.  A trailer reads back, in both places, exactly where its task is such an id
and its two numbers have sixteen digits at most; and then the verdict of the hook is the
broker's.

`grep` looks for a line after a newline and the regular expression after any line
terminator, so what comes before the trailer must not hold another one behind a carriage
return or a Unicode separator.
-/
import PiMesh.Cli.Lease
import PiMesh.Js.Search
import PiMesh.Proofs.Lease

namespace PiMesh

open Js

/-! ### What the result speaks of -/

/-- The reference a lease is committed under. -/
def refOf (l : LeaseRecord) : LeaseRef :=
  { task := l.task, leaseId := l.leaseId, epoch := l.epoch, fence := l.fence }

/-- What `makeMsgId` returns: `m_<time in base 36>_<eight hexadecimal digits>`. -/
def IsMsgId (s : String) : Prop :=
  ∃ time rand : List Char, s.toList = 'm' :: '_' :: time ++ '_' :: rand ∧
    (∀ c ∈ time, isLowerOrDigit c = true) ∧ time.length ≤ 11 ∧
    (∀ c ∈ rand, isLowerOrDigit c = true) ∧ rand.length = 8

/-- A lease the table of some broker grants for a task that `validateFrame` accepts. -/
def CanGrant (lease : LeaseRecord) : Prop :=
  ∃ (t t' : LeaseTable) (clock : Nat → Int) (leaseId grantedAt task owner : String)
    (paths : List String) (ttlMs : Int) (file : Option String) (now : Int),
    t.epoch = (nextEpoch file now).1 ∧ IsMsgId leaseId ∧ lengthIn 1 128 task = true ∧
      t.claim clock leaseId grantedAt task owner paths ttlMs = (.granted lease false, t')

/-- The first line of the text that begins with the key is the trailer of the lease. -/
structure FirstTrailer (lease : LeaseRecord) (text : List Char) (before after : List (List Char)) :
    Prop where
  lines : splitChars '\n' text = before ++ formatLeaseTrailer (refOf lease) :: after
  first : ∀ line ∈ before, trailerKey.isPrefixOf line = false

/-- The broker with this table holds exactly that lease. -/
def HeldIn (table : LeaseTable) (now : Int) (lease : LeaseRecord) : Prop :=
  ∃ l, (table.get (fun _ => now) lease.task).1 = some l ∧ l.leaseId = lease.leaseId ∧
    l.epoch = lease.epoch ∧ l.fence = lease.fence

/-- The four values of a lease, as the hook would write them. -/
def argsOf (lease : LeaseRecord) : VerifyArgs :=
  { task := lease.task.toList, leaseId := lease.leaseId.toList, epoch := integerText lease.epoch
    fence := integerText lease.fence }

/-- The parser and the hook give the lease back, and the verdict of the hook is the
broker's. -/
structure TrailerFaithful (lease : LeaseRecord) (text : List Char) : Prop where
  parsed : parseLeaseTrailer text = some (refOf lease)
  passed : hookVerifies text = some (argsOf lease)
  verdict : ∀ (env : Env) (table : LeaseTable) (now : Int) (id : String),
    commitMsg (leaseVerify (brokerStatus Int env table now id)) text = true ↔
      HeldIn table now lease

/-! ### Cutting texts -/

theorem takeWhile_before {p : Char → Bool} {l : List Char} (h : ∀ c ∈ l, p c = true) {sep : Char}
    (hsep : p sep = false) (r : List Char) :
    (l ++ sep :: r).takeWhile p = l ∧ (l ++ sep :: r).dropWhile p = sep :: r := by
  induction l with
  | nil => simp [hsep]
  | cons c rest ih =>
      obtain ⟨ht, hd⟩ := ih fun d hd => h d (List.mem_cons_of_mem _ hd)
      have hc := h c List.mem_cons_self
      simp only [List.cons_append, List.takeWhile_cons_of_pos hc, List.dropWhile_cons_of_pos hc]
      exact ⟨by rw [ht], hd⟩

theorem cutAt_append {sep : Char} {l : List Char} (h : sep ∉ l) (r : List Char) :
    cutAt sep (l ++ sep :: r) = some (l, r) := by
  have hall : ∀ c ∈ l, (c != sep) = true := by
    intro c hc
    have hne : c ≠ sep := fun he => h (by rw [← he]; exact hc)
    simp [hne]
  have hsep : (sep != sep) = false := by simp
  obtain ⟨ht, hd⟩ := takeWhile_before hall hsep r
  unfold cutAt
  rw [hd, ht]

theorem splitTerminators_free {l : List Char} (h : ∀ c ∈ l, isOtherTerminator c = false) :
    splitTerminators l = [l] := by
  induction l with
  | nil => rfl
  | cons c rest ih =>
      rw [splitTerminators, if_neg (by simp [h c List.mem_cons_self]),
        ih fun d hd => h d (List.mem_cons_of_mem _ hd)]

/-! ### Numbers -/

theorem integerText_nat (n : Nat) : integerText n = Nat.toDigits 10 n := rfl

theorem shortNumber_toDigits {n : Nat} (h : n < 10 ^ 16) :
    shortNumber (Nat.toDigits 10 n) = some (n : Int) := by
  have hdigits : isDigits (Nat.toDigits 10 n) = true := by
    unfold isDigits
    simp only [Bool.and_eq_true, Bool.not_eq_true', List.isEmpty_eq_false_iff, List.all_eq_true]
    exact ⟨Nat.toDigits_ne_nil, toDigits_isDigit⟩
  have hlength : (Nat.toDigits 10 n).length ≤ 16 :=
    (Nat.length_toDigits_le_iff (by decide) (by decide)).mpr h
  unfold shortNumber
  rw [if_pos ⟨hdigits, hlength⟩, Nat.ofDigitChars_ten_toDigits]

theorem ofDigitChars_lt {l : List Char} (h : ∀ c ∈ l, c.isDigit = true) (init : Nat) :
    Nat.ofDigitChars 10 l init < (init + 1) * 10 ^ l.length := by
  induction l generalizing init with
  | nil => simp
  | cons c rest ih =>
      have hc : c.isDigit = true := h c List.mem_cons_self
      simp only [Char.isDigit, Bool.and_eq_true, decide_eq_true_eq] at hc
      have h9 : c.toNat - '0'.toNat ≤ 9 := by
        have h57 : c.toNat ≤ 57 := hc.2
        show c.toNat - 48 ≤ 9
        omega
      rw [Nat.ofDigitChars_cons]
      refine (ih (fun d hd => h d (List.mem_cons_of_mem _ hd)) _).trans_le ?_
      rw [List.length_cons, Nat.pow_succ, Nat.mul_comm (10 ^ rest.length) 10, ← Nat.mul_assoc]
      refine Nat.mul_le_mul_right _ ?_
      omega

theorem shortNumber_lt {l : List Char} {n : Int} (h : shortNumber l = some n) : n < 10 ^ 16 := by
  unfold shortNumber at h
  split at h
  · next hshort =>
      obtain ⟨hdigits, hlength⟩ := hshort
      obtain rfl := Option.some.inj h
      simp only [isDigits, Bool.and_eq_true, List.all_eq_true] at hdigits
      have hlt := ofDigitChars_lt hdigits.2 0
      have hpow : 10 ^ l.length ≤ 10 ^ 16 := Nat.pow_le_pow_right (by decide) hlength
      rw [Nat.zero_add, Nat.one_mul] at hlt
      exact_mod_cast hlt.trans_le hpow
  · cases h

/-! ### Characters -/

/-- A character of a task id or of an id of ours. -/
def isPlain (c : Char) : Bool :=
  c.isAlphanum || c == '.' || c == '_' || c == ':' || c == '/' || c == '-'

theorem isPlain_range {c : Char} (h : isPlain c = true) : 33 ≤ c.toNat ∧ c.toNat ≤ 122 ∧ c ≠ '#' := by
  delta isPlain Char.isAlphanum Char.isAlpha Char.isUpper Char.isLower Char.isDigit at h
  simp only [Bool.or_eq_true, Bool.and_eq_true, decide_eq_true_eq, beq_iff_eq] at h
  rcases h with (((((((⟨h₁, h₂⟩ | ⟨h₁, h₂⟩) | ⟨h₁, h₂⟩) | rfl) | rfl) | rfl) | rfl) | rfl)
  · have hlo : 65 ≤ c.toNat := h₁
    have hhi : c.toNat ≤ 90 := h₂
    refine ⟨by omega, by omega, ?_⟩
    rintro rfl
    exact absurd hlo (by decide)
  · have hlo : 97 ≤ c.toNat := h₁
    have hhi : c.toNat ≤ 122 := h₂
    refine ⟨by omega, by omega, ?_⟩
    rintro rfl
    exact absurd hlo (by decide)
  · have hlo : 48 ≤ c.toNat := h₁
    have hhi : c.toNat ≤ 57 := h₂
    refine ⟨by omega, by omega, ?_⟩
    rintro rfl
    exact absurd hlo (by decide)
  all_goals decide

theorem isPlain_not {c : Char} (h : isPlain c = true) :
    c ≠ '#' ∧ isTabOrSpace c = false ∧ isTrimmed c = false ∧ isOtherTerminator c = false := by
  obtain ⟨hlo, hhi, hhash⟩ := isPlain_range h
  refine ⟨hhash, ?_, ?_, ?_⟩
  · simp only [isTabOrSpace, Bool.or_eq_false_iff, beq_eq_false_iff_ne]
    constructor <;> rintro rfl <;> exact absurd hlo (by decide)
  · simp only [isTrimmed, Bool.or_eq_false_iff, Bool.and_eq_false_iff, beq_eq_false_iff_ne, ne_eq,
      decide_eq_false_iff_not, not_le]
    omega
  · simp only [isOtherTerminator, Bool.or_eq_false_iff, beq_eq_false_iff_ne]
    refine ⟨⟨?_, ?_⟩, ?_⟩ <;> rintro rfl
    · exact absurd hlo (by decide)
    · exact absurd hhi (by decide)
    · exact absurd hhi (by decide)

theorem isPlain_of_digit {c : Char} (h : c.isDigit = true) : isPlain c = true := by
  simp [isPlain, Char.isAlphanum, h]

theorem isPlain_of_lowerOrDigit {c : Char} (h : isLowerOrDigit c = true) : isPlain c = true := by
  rcases Bool.or_eq_true_iff.mp h with h | h
  · have halpha : c.isAlpha = true := by
      show (c.isUpper || c.isLower) = true
      rw [h, Bool.or_true]
    simp [isPlain, Char.isAlphanum, halpha]
  · exact isPlain_of_digit h

theorem isTaskId_plain {s : String} (h : isTaskId s = true) :
    s.toList ≠ [] ∧ ∀ c ∈ s.toList, isPlain c = true := by
  unfold isTaskId at h
  split at h
  · cases h
  · next c rest heq =>
      rw [heq]
      simp only [Bool.and_eq_true, List.all_eq_true] at h
      refine ⟨by simp, ?_⟩
      intro d hd
      rcases List.mem_cons.mp hd with rfl | hd
      · simp [isPlain, h.1.1]
      · exact h.2 d hd

theorem isMsgId_plain {s : String} (h : IsMsgId s) :
    s.toList ≠ [] ∧ (∀ c ∈ s.toList, isPlain c = true) ∧ s.toList.length ≤ 22 := by
  obtain ⟨time, rand, heq, htime, htimeLength, hrand, hrandLength⟩ := h
  rw [heq]
  refine ⟨by simp, ?_, by simp; omega⟩
  intro c hc
  simp only [List.cons_append, List.mem_cons, List.mem_append] at hc
  rcases hc with rfl | rfl | hc | rfl | hc
  · decide
  · decide
  · exact isPlain_of_lowerOrDigit (htime c hc)
  · decide
  · exact isPlain_of_lowerOrDigit (hrand c hc)

/-- Plain text counts its characters once. -/
theorem strLength_plain {l : List Char} (h : ∀ c ∈ l, isPlain c = true) :
    strLength (String.ofList l) = l.length := by
  unfold strLength
  rw [String.toList_ofList]
  induction l with
  | nil => rfl
  | cons c rest ih =>
      obtain ⟨_, hhi, _⟩ := isPlain_range (h c List.mem_cons_self)
      have hone : utf16Size c = 1 := by
        unfold utf16Size
        rw [if_pos (by omega)]
      rw [List.map_cons, List.sum_cons, ih fun d hd => h d (List.mem_cons_of_mem _ hd), hone,
        List.length_cons, Nat.add_comm]

/-! ### The parser reads what the printer wrote -/

/-- A lease whose trailer is well formed. -/
structure WellPrinted (ref : LeaseRef) : Prop where
  task : isTaskId ref.task = true
  leaseId : ref.leaseId.toList ≠ [] ∧ (∀ c ∈ ref.leaseId.toList, isPlain c = true) ∧
    ref.leaseId.toList.length ≤ 128
  epoch : ∃ n : Nat, ref.epoch = n ∧ 0 < n ∧ n < 10 ^ 16
  fence : ∃ n : Nat, ref.fence = n ∧ 0 < n ∧ n < 10 ^ 16

variable {ref : LeaseRef} {line : List Char}

theorem trailerOf_format (h : WellPrinted ref) : trailerOf (formatLeaseTrailer ref) = some ref := by
  obtain ⟨hne, hplain⟩ := isTaskId_plain h.task
  obtain ⟨hidNe, hid, hidLength⟩ := h.leaseId
  obtain ⟨epoch, hepoch, -, hepochLt⟩ := h.epoch
  obtain ⟨fence, hfence, -, hfenceLt⟩ := h.fence
  have hkey : trailerKey.isPrefixOf (formatLeaseTrailer ref) = true := by
    rw [List.isPrefixOf_iff_prefix]
    exact ⟨' ' :: ref.task.toList ++ '#' :: ref.leaseId.toList ++ '#' :: integerText ref.epoch ++
      ':' :: integerText ref.fence, by simp [formatLeaseTrailer]⟩
  have hdrop : (formatLeaseTrailer ref).drop trailerKey.length = ' ' :: (ref.task.toList ++
      '#' :: (ref.leaseId.toList ++ '#' :: (Nat.toDigits 10 epoch ++ ':' :: Nat.toDigits 10 fence))) := by
    unfold formatLeaseTrailer
    rw [hepoch, hfence, integerText_nat, integerText_nat]
    simp
  have hblank : (' ' :: (ref.task.toList ++ '#' :: (ref.leaseId.toList ++
      '#' :: (Nat.toDigits 10 epoch ++ ':' :: Nat.toDigits 10 fence)))).dropWhile isTabOrSpace =
      ref.task.toList ++ '#' :: (ref.leaseId.toList ++
        '#' :: (Nat.toDigits 10 epoch ++ ':' :: Nat.toDigits 10 fence)) := by
    rw [List.dropWhile_cons_of_pos (by decide)]
    cases htask : ref.task.toList with
    | nil => exact absurd htask hne
    | cons c rest =>
        have hc := hplain c (by rw [htask]; exact List.mem_cons_self)
        rw [List.cons_append, List.dropWhile_cons_of_neg]
        simp [(isPlain_not hc).2.1]
  have htask : '#' ∉ ref.task.toList := fun hc => (isPlain_not (hplain _ hc)).1 rfl
  have hleaseId : '#' ∉ ref.leaseId.toList := fun hc => (isPlain_not (hid _ hc)).1 rfl
  have hcolon : ':' ∉ Nat.toDigits 10 epoch := fun hc => absurd (toDigits_isDigit _ hc) (by decide)
  have htake : (Nat.toDigits 10 fence).takeWhile Char.isDigit = Nat.toDigits 10 fence :=
    List.takeWhile_eq_self_iff.mpr toDigits_isDigit
  have hlength : lengthIn 1 128 ref.leaseId = true := by
    have hpos := List.length_pos_iff.mpr hidNe
    have hstr := strLength_plain hid
    rw [String.ofList_toList] at hstr
    simp only [lengthIn, hstr, Bool.and_eq_true, decide_eq_true_eq]
    omega
  have hspaces : (ref.leaseId.toList.all fun c => !isTrimmed c) = true := by
    rw [List.all_eq_true]
    intro c hc
    rw [(isPlain_not (hid c hc)).2.2.1]
    rfl
  unfold trailerOf
  simp only [hkey, if_true, hdrop, hblank, Option.bind_eq_bind, Option.bind_some,
    cutAt_append htask, cutAt_append hleaseId, cutAt_append hcolon, htake,
    shortNumber_toDigits hepochLt, shortNumber_toDigits hfenceLt, String.ofList_toList]
  rw [if_pos ⟨h.task, hlength, hspaces, by simp⟩]
  simp only [← hepoch, ← hfence]

/-- What the parser accepts is well formed. -/
theorem trailerOf_some (h : trailerOf line = some ref) :
    isTaskId ref.task = true ∧ ref.epoch < 10 ^ 16 ∧ ref.fence < 10 ^ 16 := by
  unfold trailerOf at h
  by_cases hkey : trailerKey.isPrefixOf line = true
  · simp only [hkey, if_true, Option.bind_eq_bind, Option.bind_eq_some_iff] at h
    obtain ⟨_, _, ⟨task, _⟩, _, ⟨leaseId, _⟩, _, ⟨epoch, _⟩, _, epoch', hepoch, fence', hfence, h⟩ := h
    split at h
    · next hok =>
        obtain rfl := Option.some.inj h
        exact ⟨hok.1, shortNumber_lt hepoch, shortNumber_lt hfence⟩
    · cases h
  · rw [if_neg hkey] at h
    cases h

/-- The trailer is one line to the regular expression as well. -/
theorem format_plain (h : WellPrinted ref) : ∀ c ∈ formatLeaseTrailer ref, isOtherTerminator c = false := by
  obtain ⟨_, htask⟩ := isTaskId_plain h.task
  obtain ⟨epoch, hepoch, -, -⟩ := h.epoch
  obtain ⟨fence, hfence, -, -⟩ := h.fence
  have hplain : ∀ c, isPlain c = true → isOtherTerminator c = false := fun c hc => (isPlain_not hc).2.2.2
  intro c hc
  unfold formatLeaseTrailer at hc
  rw [hepoch, hfence, integerText_nat, integerText_nat] at hc
  simp only [List.mem_append, List.mem_cons] at hc
  rcases hc with (((hc | rfl | hc) | rfl | hc) | rfl | hc) | rfl | hc
  · have hkey : (trailerKey.all fun c => !isOtherTerminator c) = true := by decide
    simpa using List.all_eq_true.mp hkey c hc
  · decide
  · exact hplain c (htask c hc)
  · decide
  · exact hplain c (h.leaseId.2.1 c hc)
  · decide
  · exact hplain c (isPlain_of_digit (toDigits_isDigit c hc))
  · decide
  · exact hplain c (isPlain_of_digit (toDigits_isDigit c hc))

/-! ### The hook -/

theorem deleteBlanks_plain {l : List Char} (h : ∀ c ∈ l, isPlain c = true) : deleteBlanks l = l := by
  refine List.filter_eq_self.mpr ?_
  intro c hc
  simp [(isPlain_not (h c hc)).2.1]

theorem hookArgs_format (h : WellPrinted ref) : hookArgs (formatLeaseTrailer ref) =
    { task := ref.task.toList, leaseId := ref.leaseId.toList, epoch := integerText ref.epoch
      fence := integerText ref.fence } := by
  obtain ⟨_, hplain⟩ := isTaskId_plain h.task
  obtain ⟨_, hid, _⟩ := h.leaseId
  obtain ⟨epoch, hepoch, -, -⟩ := h.epoch
  obtain ⟨fence, hfence, -, -⟩ := h.fence
  have hdrop : (formatLeaseTrailer ref).drop trailerKey.length = (' ' :: ref.task.toList) ++
      '#' :: (ref.leaseId.toList ++ '#' :: (Nat.toDigits 10 epoch ++ ':' :: Nat.toDigits 10 fence)) := by
    unfold formatLeaseTrailer
    rw [hepoch, hfence, integerText_nat, integerText_nat]
    simp
  have htask : '#' ∉ ' ' :: ref.task.toList := by
    intro hc
    rcases List.mem_cons.mp hc with hc | hc
    · exact absurd hc (by decide)
    · exact (isPlain_not (hplain _ hc)).1 rfl
  have hleaseId : '#' ∉ ref.leaseId.toList := fun hc => (isPlain_not (hid _ hc)).1 rfl
  have hnumber : ∀ c ∈ Nat.toDigits 10 epoch ++ ':' :: Nat.toDigits 10 fence, isPlain c = true := by
    intro c hc
    rcases List.mem_append.mp hc with hc | hc
    · exact isPlain_of_digit (toDigits_isDigit c hc)
    · rcases List.mem_cons.mp hc with rfl | hc
      · decide
      · exact isPlain_of_digit (toDigits_isDigit c hc)
  have hnumbers : '#' ∉ Nat.toDigits 10 epoch ++ ':' :: Nat.toDigits 10 fence :=
    fun hc => (isPlain_not (hnumber _ hc)).1 rfl
  have hfields : splitChars '#' ((formatLeaseTrailer ref).drop trailerKey.length) =
      [' ' :: ref.task.toList, ref.leaseId.toList,
        Nat.toDigits 10 epoch ++ ':' :: Nat.toDigits 10 fence] := by
    rw [hdrop, splitChars_append htask, splitChars_append hleaseId, splitChars_free hnumbers]
  have hnocolon : ∀ n, ∀ c ∈ Nat.toDigits 10 n, (c != ':') = true := by
    intro n c hc
    have hne : c ≠ ':' := by
      rintro rfl
      exact absurd (toDigits_isDigit _ hc) (by decide)
    simp [hne]
  have hcolon : (':' != ':') = false := by decide
  have hbefore := (takeWhile_before (hnocolon epoch) hcolon (Nat.toDigits 10 fence)).1
  have hafter : (Nat.toDigits 10 epoch ++ ':' :: Nat.toDigits 10 fence).reverse =
      (Nat.toDigits 10 fence).reverse ++ ':' :: (Nat.toDigits 10 epoch).reverse := by simp
  have hlast := (takeWhile_before (fun c hc => hnocolon fence c (List.mem_reverse.mp hc)) hcolon
    (Nat.toDigits 10 epoch).reverse).1
  unfold hookArgs cutField
  simp only [hfields, List.length_cons, List.length_nil, Nat.reduceAdd, Nat.reduceLeDiff, if_false,
    Nat.sub_self, Nat.reduceSub, List.getD_cons_zero, List.getD_cons_succ,
    deleteBlanks_plain hid, deleteBlanks_plain hnumber, beforeFirstColon, afterLastColon, hbefore, hafter,
    hlast, List.reverse_reverse, hepoch, hfence, integerText_nat]
  have hblank : deleteBlanks (' ' :: ref.task.toList) = ref.task.toList := by
    unfold deleteBlanks
    rw [List.filter_cons_of_neg (by decide)]
    exact deleteBlanks_plain hplain
  rw [hblank]

/-- `Number` reads the text of a positive integer back. -/
theorem numberInteger_toDigits {n : Nat} (hpos : 0 < n) (hlt : n < 10 ^ 16) :
    numberInteger (Nat.toDigits 10 n) = some (n : Int) := by
  obtain ⟨c, r, hcr, hc⟩ := toDigits_head_ne_zero n hpos
  have hdigits := @toDigits_isDigit n
  have htrim : (trim (String.ofList (Nat.toDigits 10 n))).toList = Nat.toDigits 10 n := by
    unfold trim
    rw [String.toList_ofList, String.toList_ofList, dropWhile_isTrimmed hdigits,
      dropWhile_isTrimmed fun d hd => hdigits d (List.mem_reverse.mp hd), List.reverse_reverse]
  have htake : (Nat.toDigits 10 n).takeWhile Char.isDigit = Nat.toDigits 10 n :=
    List.takeWhile_eq_self_iff.mpr hdigits
  have hparts : decimalParts (Nat.toDigits 10 n) = some (n, 0) := by
    unfold decimalParts
    simp [htake, Nat.ofDigitChars_ten_toDigits, Nat.toDigits_ne_nil]
  have hdecimal : decimalInteger (Nat.toDigits 10 n) = some (n : Int) := by
    have hpow : 2 ^ 64 ≤ 2 ^ doubleExponent := Nat.pow_le_pow_right (by decide) (by decide)
    have hbig : n < 2 ^ doubleExponent := (hlt.trans (by decide)).trans_le hpow
    unfold decimalInteger
    simp [hparts, hbig, Nat.pos_iff_ne_zero.mp hpos]
  have hcdigit : c.isDigit = true := hdigits c (by rw [hcr]; exact List.mem_cons_self)
  unfold numberInteger
  rw [htrim]
  rw [hcr] at hdecimal ⊢
  split
  · next heq => cases heq
  · next heq => exact absurd (List.cons.inj heq).1 hc
  · next heq => exact absurd (List.cons.inj heq).1 hc
  · next heq => exact absurd (List.cons.inj heq).1 hc
  · next heq => exact absurd (List.cons.inj heq).1 hc
  · next heq => exact absurd (List.cons.inj heq).1 hc
  · next heq => exact absurd (List.cons.inj heq).1 hc
  · next heq =>
      rw [(List.cons.inj heq).1] at hcdigit
      exact absurd hcdigit (by decide)
  · next heq =>
      rw [(List.cons.inj heq).1] at hcdigit
      exact absurd hcdigit (by decide)
  · exact hdecimal

/-! ### The verdict -/

variable {lease : LeaseRecord} {text : List Char} {before after : List (List Char)}

theorem fenceVerdict_current (info : LeaseInfo) (ref : LeaseRef) :
    fenceVerdict (.current info) ref =
      if info.leaseId = ref.leaseId ∧ info.epoch = ref.epoch ∧ info.fence = ref.fence then .ok
      else .stale := by
  by_cases hid : info.leaseId = ref.leaseId
  · by_cases hnumbers : info.epoch = ref.epoch ∧ info.fence = ref.fence
    · simp [fenceVerdict, hid, hnumbers.1, hnumbers.2]
    · have hne : info.epoch ≠ ref.epoch ∨ info.fence ≠ ref.fence := by
        by_contra hall
        push Not at hall
        exact hnumbers hall
      simp [fenceVerdict, hid, hne, hnumbers]
  · simp [fenceVerdict, hid]

/-- The broker's answer about the task of the lease settles the verdict. -/
theorem fenceVerdict_broker (env : Env) (table : LeaseTable) (now : Int) (id : String) :
    (fenceVerdict (brokerStatus Int env table now id lease.task) (refOf lease) = .ok ∧
        HeldIn table now lease) ∨
      (fenceVerdict (brokerStatus Int env table now id lease.task) (refOf lease) = .stale ∧
        ¬ HeldIn table now lease) := by
  unfold brokerStatus
  cases hget : (table.get (fun _ => now) lease.task).1 with
  | none =>
      refine .inr ⟨rfl, ?_⟩
      rintro ⟨l, hl, -⟩
      rw [hget] at hl
      cases hl
  | some l =>
      have hresult : leaseResult (answerOf (ν := Int) id (env.rt.toISOString now)
          (statusOpts env (some lease.task) (some l))) = .current
            { leaseId := l.leaseId, task := l.task, owner := l.owner, paths := l.paths,
              fence := l.fence, epoch := l.epoch, expiresAt := env.rt.toISOString l.expiresAt } := rfl
      rw [hresult, fenceVerdict_current]
      by_cases hsame : l.leaseId = lease.leaseId ∧ l.epoch = lease.epoch ∧ (l.fence : Int) = lease.fence
      · refine .inl ⟨if_pos hsame, l, hget, hsame.1, hsame.2.1, ?_⟩
        exact_mod_cast hsame.2.2
      · refine .inr ⟨if_neg hsame, ?_⟩
        rintro ⟨l', hl', hid, hepoch, hfence⟩
        obtain rfl := Option.some.inj (hget.symm.trans hl')
        exact hsame ⟨hid, hepoch, by rw [hfence]⟩

theorem leaseVerify_broker (h : WellPrinted (refOf lease)) (env : Env) (table : LeaseTable)
    (now : Int) (id : String) :
    (leaseVerify (brokerStatus Int env table now id) (argsOf lease) != exitLeaseStale) = true ↔
      HeldIn table now lease := by
  obtain ⟨epoch, hepoch, hepochPos, hepochLt⟩ := h.epoch
  obtain ⟨fence, hfence, hfencePos, hfenceLt⟩ := h.fence
  have hepochText : (argsOf lease).epoch = Nat.toDigits 10 epoch := by
    show integerText (refOf lease).epoch = _
    rw [hepoch]
    rfl
  have hfenceText : (argsOf lease).fence = Nat.toDigits 10 fence := by
    show integerText (refOf lease).fence = _
    rw [hfence]
    rfl
  have hverify : leaseVerify (brokerStatus Int env table now id) (argsOf lease) =
      cmdLeaseVerify (brokerStatus Int env table now id) (refOf lease) := by
    unfold leaseVerify
    rw [hepochText, hfenceText, numberInteger_toDigits hepochPos hepochLt,
      numberInteger_toDigits hfencePos hfenceLt]
    dsimp only
    rw [if_neg (by omega)]
    show cmdLeaseVerify _ ⟨String.ofList lease.task.toList, String.ofList lease.leaseId.toList, _, _⟩ = _
    rw [String.ofList_toList, String.ofList_toList, ← hepoch, ← hfence]
    rfl
  rw [hverify]
  unfold cmdLeaseVerify
  rcases fenceVerdict_broker env table now id with ⟨hok, hheld⟩ | ⟨hstale, hheld⟩
  · rw [show (refOf lease).task = lease.task from rfl, hok]
    exact iff_of_true (by decide) hheld
  · rw [show (refOf lease).task = lease.task from rfl, hstale]
    exact iff_of_false (by decide) hheld

/-! ### The claim -/

/-- What a grant says about a lease. -/
theorem canGrant_shape (h : CanGrant lease) :
    IsMsgId lease.leaseId ∧ 0 < lease.epoch ∧ 0 < lease.fence := by
  obtain ⟨t, t', clock, leaseId, grantedAt, task, owner, paths, ttlMs, file, now, hepoch, hid, -, hclaim⟩ := h
  have hpos : 0 < t.epoch := by
    have hread := readEpoch_nonneg file
    rw [hepoch]
    show 0 < max (readEpoch file + 1) now
    omega
  unfold LeaseTable.claim at hclaim
  split at hclaim
  · cases hclaim
  split at hclaim
  · cases hclaim
  split at hclaim
  · cases hclaim
  dsimp only at hclaim
  split at hclaim
  · split at hclaim <;> cases hclaim
  · cases hclaim
    exact ⟨hid, hpos, Nat.succ_pos _⟩

theorem wellPrinted_of_grant (h : CanGrant lease) (htask : isTaskId lease.task = true)
    (hepoch : lease.epoch < 10 ^ 16) (hfence : lease.fence < 10 ^ 16) : WellPrinted (refOf lease) := by
  obtain ⟨hid, hepochPos, hfencePos⟩ := canGrant_shape h
  obtain ⟨hne, hplain, hlength⟩ := isMsgId_plain hid
  refine ⟨htask, ⟨hne, hplain, hlength.trans (by decide)⟩, ?_, lease.fence, rfl, hfencePos, hfence⟩
  exact ⟨lease.epoch.toNat, by show lease.epoch = _; omega, by omega, by omega⟩

theorem grepTrailer_first (h : FirstTrailer lease text before after) :
    grepTrailer text = some (formatLeaseTrailer (refOf lease)) := by
  unfold grepTrailer
  rw [h.lines, List.find?_append, List.find?_eq_none.mpr (fun line hline => by simp [h.first line hline]),
    Option.none_or]
  refine List.find?_cons_of_pos ?_
  rw [List.isPrefixOf_iff_prefix]
  exact ⟨' ' :: lease.task.toList ++ '#' :: lease.leaseId.toList ++ '#' :: integerText lease.epoch ++
    ':' :: integerText lease.fence, by simp [formatLeaseTrailer, refOf]⟩

theorem hookVerifies_first (h : FirstTrailer lease text before after)
    (hwell : WellPrinted (refOf lease)) : hookVerifies text = some (argsOf lease) := by
  obtain ⟨epoch, hepoch, -, -⟩ := hwell.epoch
  obtain ⟨fence, hfence, -, -⟩ := hwell.fence
  have hargs : hookArgs (formatLeaseTrailer (refOf lease)) = argsOf lease := hookArgs_format hwell
  unfold hookVerifies
  rw [grepTrailer_first h]
  dsimp only
  rw [hargs, if_neg]
  rintro (hnil | hnil | hnil | hnil)
  · exact (isTaskId_plain hwell.task).1 hnil
  · exact hwell.leaseId.1 hnil
  · have htext : integerText (refOf lease).epoch = [] := hnil
    rw [hepoch] at htext
    exact Nat.toDigits_ne_nil htext
  · have htext : integerText (refOf lease).fence = [] := hnil
    rw [hfence] at htext
    exact Nat.toDigits_ne_nil htext

/-- The trailer of a lease reads back, in the parser and in the hook, and the hook lets the
commit pass exactly where the broker still holds the lease, if and only if the task is a
task id, the two numbers have sixteen digits at most, and no line terminator other than a
newline hides another trailer before it. -/
theorem trailer_faithful_iff (hgrant : CanGrant lease) (hfirst : FirstTrailer lease text before after) :
    TrailerFaithful lease text ↔
      isTaskId lease.task = true ∧ lease.epoch < 10 ^ 16 ∧ lease.fence < 10 ^ 16 ∧
        ∀ ref, parseTrailerLines before = some ref → ref = refOf lease := by
  have hparse : parseLeaseTrailer text = (parseTrailerLines before).or
      (parseTrailerLines (formatLeaseTrailer (refOf lease) :: after)) := by
    unfold parseLeaseTrailer parseTrailerLines
    rw [hfirst.lines, List.flatMap_append, List.findSome?_append]
  constructor
  · intro h
    obtain ⟨line, -, hline⟩ := List.exists_of_findSome?_eq_some h.parsed
    obtain ⟨htask, hepoch, hfence⟩ := trailerOf_some hline
    refine ⟨htask, hepoch, ?_, ?_⟩
    · have hint : (lease.fence : Int) < 10 ^ 16 := hfence
      exact_mod_cast hint
    · intro ref href
      have hparsed := h.parsed
      rw [hparse, href, Option.some_or] at hparsed
      exact Option.some.inj hparsed
  · rintro ⟨htask, hepoch, hfence, hbefore⟩
    have hwell := wellPrinted_of_grant hgrant htask hepoch hfence
    have hargs := hookVerifies_first hfirst hwell
    refine ⟨?_, hargs, ?_⟩
    · rw [hparse]
      cases hearlier : parseTrailerLines before with
      | some ref => rw [Option.some_or, hbefore ref hearlier]
      | none =>
          unfold parseTrailerLines
          rw [Option.none_or, List.flatMap_cons, splitTerminators_free (format_plain hwell)]
          exact List.findSome?_cons_of_isSome (by rw [trailerOf_format hwell]; rfl) |>.trans
            (trailerOf_format hwell)
    · intro env table now id
      unfold commitMsg
      rw [grepTrailer_first hfirst]
      dsimp only
      rw [hargs]
      exact leaseVerify_broker hwell env table now id

/-! ### Two grants -/

/-- The table of a broker that starts with an empty epoch file, with one lease for a task. -/
def grantTo (task : String) : ClaimOutcome × LeaseTable :=
  ({ epoch := (nextEpoch none 1770000000000).1 } : LeaseTable).claim (fun _ => 1770000000000)
    "m_mkzdq2ps_0a1b2c3d" "2026-02-02T02:40:00.000Z" task "alice" ["src/a.ts"] 60000

/-- The lease it grants. -/
def grantedTo (task : String) : LeaseRecord where
  leaseId := "m_mkzdq2ps_0a1b2c3d"
  task := task
  owner := "alice"
  paths := ["src/a.ts"]
  fence := 1
  epoch := 1770000000000
  grantedAt := "2026-02-02T02:40:00.000Z"
  expiresAt := 1770000060000

/-- A commit message with the trailer of that lease under its subject. -/
def messageFor (task : String) : List Char :=
  "subject\n\n".toList ++ formatLeaseTrailer (refOf (grantedTo task)) ++ ['\n']

theorem canGrant_grantedTo {task : String} (hlength : lengthIn 1 128 task = true)
    (h : (grantTo task).1 = .granted (grantedTo task) false) : CanGrant (grantedTo task) := by
  refine ⟨_, (grantTo task).2, fun _ => 1770000000000, "m_mkzdq2ps_0a1b2c3d", _, task, _, _, _, none,
    1770000000000, rfl, ?_, hlength, Prod.ext h rfl⟩
  have htime : "mkzdq2ps".toList.all isLowerOrDigit = true := by decide
  have hrand : "0a1b2c3d".toList.all isLowerOrDigit = true := by decide
  exact ⟨"mkzdq2ps".toList, "0a1b2c3d".toList, by decide, List.all_eq_true.mp htime, by decide,
    List.all_eq_true.mp hrand, by decide⟩

/-- A task with a space in it: the parser finds no trailer, and the hook rejects the commit of
the owner while the broker holds the lease. -/
theorem spaced_task_unfaithful : CanGrant (grantedTo "fix bug") ∧
    FirstTrailer (grantedTo "fix bug") (messageFor "fix bug") ["subject".toList, []] [[]] ∧
    parseLeaseTrailer (messageFor "fix bug") = none ∧
    HeldIn (grantTo "fix bug").2 1770000001000 (grantedTo "fix bug") ∧
    commitMsg (leaseVerify (brokerStatus Int (referenceEnv {}) (grantTo "fix bug").2 1770000001000 "m_1"))
      (messageFor "fix bug") = false ∧
    ¬ TrailerFaithful (grantedTo "fix bug") (messageFor "fix bug") := by
  have hparse : parseLeaseTrailer (messageFor "fix bug") = none := by decide +kernel
  refine ⟨canGrant_grantedTo (by decide +kernel) (by decide +kernel),
    ⟨by decide +kernel, by decide +kernel⟩, hparse, ⟨grantedTo "fix bug", ?_, rfl, rfl, rfl⟩, ?_, ?_⟩
  · decide +kernel
  · decide +kernel
  · intro h
    have hparsed := h.parsed
    rw [hparse] at hparsed
    cases hparsed

theorem task_id_faithful : TrailerFaithful (grantedTo "mesh-b") (messageFor "mesh-b") := by
  have hfirst : FirstTrailer (grantedTo "mesh-b") (messageFor "mesh-b") ["subject".toList, []] [[]] :=
    ⟨by decide +kernel, by decide +kernel⟩
  refine (trailer_faithful_iff (canGrant_grantedTo (by decide +kernel) (by decide +kernel)) hfirst).mpr
    ⟨by decide +kernel, by decide +kernel, by decide +kernel, ?_⟩
  intro ref href
  have hnone : parseTrailerLines ["subject".toList, []] = none := by decide +kernel
  rw [hnone] at href
  cases href

end PiMesh
