import Swnet.Lib.Mem

/-!
# Formatted output

Strings with a terminator, a format with the conversions `%s`, `%d`, `%u` and `%lld`, and
`vsnprintf(3)`, which writes what there is room for and answers with the length of the whole text.

* `CStr`                the bytes of a string, without its terminator;
* `format`              the text of a format and its arguments;
* `format_length_le`    it is no longer than the format and the arguments can make it;
* `format_plain`        it has no terminator in it;
* `vsnprintf_text`      what `vsnprintf(3)` leaves in the buffer, and its answer;
* `cstring_terminated`  what is read back from a buffer.
-/

namespace CMem

/-- a string as C has it: the bytes in front of the terminator -/
structure CStr where
  bytes : Bytes
  plain : 0 ∉ bytes

def charByte (c : Char) : Byte := UInt8.ofNat c.toNat

/-- an ASCII text as bytes -/
def ascii (s : String) : Bytes := s.toList.map charByte

theorem ascii_ofList (cs : List Char) : ascii (.ofList cs) = cs.map charByte := by
  rw [ascii, String.toList_ofList]

theorem ascii_length (cs : List Char) : (ascii (.ofList cs)).length = cs.length := by
  rw [ascii_ofList, List.length_map]

/-- a string literal -/
def CStr.lit (s : String) (h : 0 ∉ ascii s := by decide) : CStr := ⟨ascii s, h⟩

/-! ## numbers -/

def digits (n : Nat) : Bytes := (Nat.toDigits 10 n).map charByte

/-- a number in decimal, with a sign only where it is negative -/
def decimal (v : Int) : Bytes := if v < 0 then charByte '-' :: digits v.natAbs else digits v.natAbs

theorem decimal_nat (n : Nat) : decimal n = digits n := by
  rw [decimal, if_neg (Int.not_lt.mpr (Int.natCast_nonneg n)), Int.natAbs_natCast]

theorem digits_length_le {n k : Nat} (hk : 0 < k) (h : n < 10 ^ k) : (digits n).length ≤ k := by
  rw [digits, List.length_map]
  exact (Nat.length_toDigits_le_iff (by decide) hk).mpr h

theorem decimal_length_le {v : Int} {k : Nat} (hk : 0 < k) (h : v.natAbs < 10 ^ k) :
    (decimal v).length ≤ k + 1 := by
  have hd := digits_length_le hk h
  unfold decimal
  split
  · exact Nat.succ_le_succ hd
  · exact Nat.le_succ_of_le hd

theorem charByte_digit {c : Char} (h : c.isDigit = true) : charByte c ≠ 0 := by
  obtain ⟨h1, h2⟩ := Char.isDigit_iff_toNat.mp h
  have h1 : 48 ≤ c.toNat := h1
  have h2 : c.toNat ≤ 57 := h2
  intro h0
  have h3 : c.toNat % 256 = 0 := congrArg UInt8.toNat h0
  omega

theorem digits_plain (n : Nat) : 0 ∉ digits n := by
  intro h
  obtain ⟨c, hc, h0⟩ := List.mem_map.mp h
  exact charByte_digit (Nat.isDigit_of_mem_toDigits (by decide) (by decide) hc) h0

theorem decimal_plain (v : Int) : 0 ∉ decimal v := by
  unfold decimal
  split
  · exact List.not_mem_cons_of_ne_of_not_mem (by decide) (digits_plain _)
  · exact digits_plain _

/-! ## formats -/

/-- An argument behind a format.  An `int` and an `unsigned int` are passed alike, and the conversion
says which of them it is. -/
inductive Arg where
  | str (s : CStr)
  | int (v : Int32)
  | llong (v : Int64)

inductive Conv where
  | str
  | int
  | uint
  | llong
deriving DecidableEq, Repr

inductive Piece where
  | char (c : Char)
  | conv (k : Conv)
deriving DecidableEq, Repr

/-- a format piece by piece, `none` with a conversion that is not one of the four, or with a character
that ends the string -/
def pieces : List Char → Option (List Piece)
  | [] => some []
  | '%' :: 's' :: cs => (pieces cs).map (.conv .str :: ·)
  | '%' :: 'd' :: cs => (pieces cs).map (.conv .int :: ·)
  | '%' :: 'u' :: cs => (pieces cs).map (.conv .uint :: ·)
  | '%' :: 'l' :: 'l' :: 'd' :: cs => (pieces cs).map (.conv .llong :: ·)
  | '%' :: _ => none
  | c :: cs => if charByte c = 0 then none else (pieces cs).map (.char c :: ·)

/-- what a conversion makes of an argument, `none` where it is not its kind -/
def Conv.text : Conv → Arg → Option Bytes
  | .str, .str s => some s.bytes
  | .int, .int v => some (decimal v.toInt)
  | .uint, .int v => some (decimal v.toUInt32.toNat)
  | .llong, .llong v => some (decimal v.toInt)
  | _, _ => none

def render : List Piece → List Arg → Option Bytes
  | [], _ => some []
  | .char c :: ps, args => (render ps args).map (charByte c :: ·)
  | .conv _ :: _, [] => none
  | .conv k :: ps, a :: args => (k.text a).bind fun t => (render ps args).map (t ++ ·)

/-- the text; `none` where the arguments are not those that the format asks for -/
def format (fmt : String) (args : List Arg) : Option Bytes :=
  (pieces fmt.toList).bind fun ps => render ps args

theorem format_ofList (cs : List Char) (args : List Arg) :
    format (.ofList cs) args = (pieces cs).bind fun ps => render ps args := by
  rw [format, String.toList_ofList]

example : format "%s:%u, error:%d, link:%lld" [.str (.lit "lo"), .int 80, .int (-9), .llong 7]
    = some (ascii "lo:80, error:-9, link:7") := by decide

/-- the bytes that an argument can take -/
def Arg.room : Arg → Nat
  | .str s => s.bytes.length
  | .int _ => 11
  | .llong _ => 20

section
variable {k : Conv} {a : Arg} {t : Bytes} {ps : List Piece} {args : List Arg} {fmt : String}

theorem conv_length_le (h : k.text a = some t) : t.length ≤ a.room := by
  cases k <;> cases a <;> cases h
  case str s => exact Nat.le_refl _
  case int v =>
    refine decimal_length_le (k := 10) (by decide) ?_
    have h0 := v.le_toInt
    have h1 := v.toInt_lt
    omega
  case uint v =>
    refine decimal_length_le (k := 10) (by decide) ?_
    have h1 := v.toUInt32.toNat_lt
    omega
  case llong v =>
    refine decimal_length_le (k := 19) (by decide) ?_
    have h0 := v.le_toInt
    have h1 := v.toInt_lt
    omega

theorem conv_plain (h : k.text a = some t) : 0 ∉ t := by
  cases k <;> cases a <;> cases h
  case str s => exact s.plain
  case int v => exact decimal_plain _
  case uint v => exact decimal_plain _
  case llong v => exact decimal_plain _

theorem render_length_le (h : render ps args = some t) :
    t.length ≤ ps.length + (args.map Arg.room).sum := by
  induction ps generalizing args t with
  | nil =>
    cases h
    exact Nat.zero_le _
  | cons p ps ih =>
    cases p with
    | char c =>
      obtain ⟨u, hu, rfl⟩ := Option.map_eq_some_iff.mp h
      have := ih hu
      rw [List.length_cons, List.length_cons]
      omega
    | conv k =>
      cases args with
      | nil => cases h
      | cons a args =>
        obtain ⟨v, hv, h⟩ := Option.bind_eq_some_iff.mp h
        obtain ⟨u, hu, rfl⟩ := Option.map_eq_some_iff.mp h
        have h1 := conv_length_le hv
        have h2 := ih hu
        rw [List.length_append, List.length_cons, List.map_cons, List.sum_cons]
        omega

theorem render_plain (hc : ∀ c, .char c ∈ ps → charByte c ≠ 0) (h : render ps args = some t) :
    0 ∉ t := by
  induction ps generalizing args t with
  | nil =>
    cases h
    exact List.not_mem_nil
  | cons p ps ih =>
    have hps : ∀ c, .char c ∈ ps → charByte c ≠ 0 := fun c h => hc c (List.mem_cons_of_mem _ h)
    cases p with
    | char c =>
      obtain ⟨u, hu, rfl⟩ := Option.map_eq_some_iff.mp h
      exact List.not_mem_cons_of_ne_of_not_mem (hc c (List.mem_cons_self ..)).symm (ih hps hu)
    | conv k =>
      cases args with
      | nil => cases h
      | cons a args =>
        obtain ⟨v, hv, h⟩ := Option.bind_eq_some_iff.mp h
        obtain ⟨u, hu, rfl⟩ := Option.map_eq_some_iff.mp h
        intro h0
        obtain h0 | h0 := List.mem_append.mp h0
        · exact conv_plain hv h0
        · exact ih hps hu h0

/-- Each piece comes from some characters of the format, and none of them ends the string. -/
def From (cs : List Char) (ps : List Piece) : Prop :=
  ps.length ≤ cs.length ∧ ∀ c, .char c ∈ ps → charByte c ≠ 0

theorem from_cons {b cs : List Char} {p : Piece} {qs : List Piece} (hb : 0 < b.length)
    (hp : ∀ c, p = .char c → charByte c ≠ 0) (hf : ∀ ps, pieces cs = some ps → From cs ps)
    (h : (pieces cs).map (p :: ·) = some qs) : From (b ++ cs) qs := by
  obtain ⟨ps, hps, rfl⟩ := Option.map_eq_some_iff.mp h
  obtain ⟨h1, h2⟩ := hf ps hps
  refine ⟨?_, fun c hc => ?_⟩
  · rw [List.length_cons, List.length_append]
    omega
  · obtain hc | hc := List.mem_cons.mp hc
    · exact hp c hc.symm
    · exact h2 c hc

theorem from_conv {b cs : List Char} {qs : List Piece} (hb : 0 < b.length)
    (hf : ∀ ps, pieces cs = some ps → From cs ps) (h : (pieces cs).map (.conv k :: ·) = some qs) :
    From (b ++ cs) qs := by
  refine from_cons hb (fun c hc => ?_) hf h
  cases hc

theorem pieces_from {cs : List Char} {ps : List Piece} (h : pieces cs = some ps) : From cs ps := by
  fun_induction pieces cs generalizing ps with
  | case1 =>
    cases h
    exact ⟨Nat.le_refl _, fun _ h => nomatch h⟩
  | case2 cs ih => exact from_conv (b := ['%', 's']) (by decide) (fun _ => ih) h
  | case3 cs ih => exact from_conv (b := ['%', 'd']) (by decide) (fun _ => ih) h
  | case4 cs ih => exact from_conv (b := ['%', 'u']) (by decide) (fun _ => ih) h
  | case5 cs ih => exact from_conv (b := ['%', 'l', 'l', 'd']) (by decide) (fun _ => ih) h
  | case6 cs => cases h
  | case7 => cases h
  | case8 c cs _ _ _ _ _ h0 ih =>
    refine from_cons (b := [c]) (Nat.succ_pos _) (fun c' hc => ?_) (fun _ => ih) h
    cases hc
    exact h0

theorem format_length_le (h : format fmt args = some t) :
    t.length ≤ fmt.toList.length + (args.map Arg.room).sum := by
  obtain ⟨ps, hps, ht⟩ := Option.bind_eq_some_iff.mp h
  have h1 := (pieces_from hps).1
  have h2 := render_length_le ht
  omega

theorem format_plain (h : format fmt args = some t) : 0 ∉ t := by
  obtain ⟨ps, hps, ht⟩ := Option.bind_eq_some_iff.mp h
  exact render_plain (pieces_from hps).2 ht

end

/-! ## buffers -/

/-- `vsnprintf(buf, n, fmt, args)`: the answer, and the contents of `buf`.  The answer is the length of
the whole text, or negative where an `int` cannot hold it; what is written is cut off behind `n - 1`
bytes.  An argument that is not there is read out of bounds. -/
def vsnprintf (buf : Bytes) (n : Nat) (fmt : String) (args : List Arg) : C (Int × Bytes) :=
  match format fmt args with
  | none => .error .bounds
  | some text => do
    let v : Int := if (text.length : Int) ≤ intMax then text.length else -1
    if n = 0 then return (v, buf)
    let kept := text.take (n - 1) ++ [0]
    return (v, ← memcpy buf 0 kept kept.length)

/-- the string that begins at a pointer -/
def cstring (buf : Bytes) : C Bytes :=
  if 0 ∈ buf then .ok (buf.takeWhile (· ≠ 0)) else .error .bounds

section
variable {buf text rest : Bytes} {n : Nat} {fmt : String} {args : List Arg}

theorem vsnprintf_text (hn : 0 < n) (hb : n ≤ buf.length) (h : format fmt args = some text) :
    ∃ rest, rest.length + (text.take (n - 1)).length + 1 = buf.length ∧
      vsnprintf buf n fmt args
        = .ok (if (text.length : Int) ≤ intMax then text.length else -1, text.take (n - 1) ++ 0 :: rest) := by
  have hk : (text.take (n - 1) ++ [0]).length ≤ n := by
    rw [List.length_append, List.length_take, List.length_singleton]
    omega
  have hcopy := @memcpy_nat buf (text.take (n - 1) ++ [0]) 0 _ (by omega) (Nat.le_refl _)
  rw [List.take_zero, List.nil_append, List.take_length, Nat.zero_add] at hcopy
  refine ⟨buf.drop (text.take (n - 1) ++ [0]).length, ?_, ?_⟩
  · rw [List.length_drop, List.length_append, List.length_singleton] at *
    omega
  · unfold vsnprintf
    rw [h]
    dsimp only
    rw [if_neg (by omega), show memcpy buf 0 _ _ = _ from hcopy, ok_bind, List.append_assoc]
    rfl

theorem cstring_terminated (h : 0 ∉ text) : cstring (text ++ 0 :: rest) = .ok text := by
  have hne : ∀ b ∈ text, decide (b ≠ 0) = true := fun b hb =>
    decide_eq_true fun h0 => h (h0 ▸ hb)
  unfold cstring
  rw [if_pos (List.mem_append_right _ (List.mem_cons_self ..)),
    List.takeWhile_append_of_pos hne, List.takeWhile_cons_of_neg (by simp), List.append_nil]

end

end CMem
