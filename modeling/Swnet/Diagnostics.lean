import Swnet.Lib.Printf

/-!
# Diagnostics

`nis_call_ecr` of `mxx.c`, which formats a message into a buffer of 1280 bytes and hands it to the
callback of the application.

* `nisCallEcr`      the function; a terminator outside of `logstr` is a `Fault.bounds`;
* `EcrCall`         a call of it, with arguments that its format asks for;
* `Contained`       no byte is stored outside, and the callback is given the message or its beginning;
* `contained_iff`   for which lengths of the message that is so.
-/

namespace Swnet
open CMem

/-- `sizeof(logstr)` -/
abbrev LOGSTR_SIZE : Nat := 1280

/-- `nis_call_ecr`, with the string that the callback is given, if it is called.  `logstr` is what stands
in the buffer; `currentEcr` and `again` are what the two reads of `current_ecr` find. -/
def nisCallEcr (currentEcr again : Bool) (logstr : Bytes) (fmt : String) (args : List Arg) :
    C (Option Bytes) := do
  if currentEcr = false then return none
  let (retval, logstr) ← vsnprintf logstr (LOGSTR_SIZE - 1) fmt args
  if retval ≤ 0 then return none
  -- `logstr[retval] = 0`
  let logstr ← memcpy logstr retval [0] 1
  -- `ecr` was NULL before the exchange, so that `old` is
  if again = false then return none
  return some (← cstring logstr)

/-- A call of `nis_call_ecr`, with arguments that are those of its format. -/
structure EcrCall where
  fmt : String
  args : List Arg
  typed : (format fmt args).isSome

namespace EcrCall

/-- the whole message -/
def message (d : EcrCall) : Bytes := (format d.fmt d.args).get d.typed

/-- With a callback, whatever stands in `logstr` before, nothing is stored outside of it, and the
string that the callback is given, if it is still there, is the message or its beginning. -/
def Contained (d : EcrCall) : Prop :=
  ∀ (again : Bool) (logstr : Bytes), logstr.length = LOGSTR_SIZE →
    ∃ r, nisCallEcr true again logstr d.fmt d.args = .ok r ∧ ∀ text, r = some text → text <+: d.message

/-- a length that `vsnprintf(3)` can report, and that is an index of `logstr`, or that it cannot report -/
def Fits (n : Nat) : Prop := n < LOGSTR_SIZE ∨ intMax < n

instance decFits (n : Nat) : Decidable (Fits n) := inferInstanceAs (Decidable (_ ∨ _))

variable {d : EcrCall}

theorem format_message (d : EcrCall) : format d.fmt d.args = some d.message :=
  (Option.some_get d.typed).symm

theorem message_plain (d : EcrCall) : 0 ∉ d.message := format_plain d.format_message

/-- a terminator that is written behind the one that is there already changes nothing -/
theorem take_terminated {text : Bytes} {n : Nat} (h : text.length ≤ n) (rest after : Bytes) :
    ∃ rest', (text ++ 0 :: rest).take n ++ [0] ++ after = text ++ 0 :: rest' := by
  obtain ⟨k, rfl⟩ := Nat.exists_eq_add_of_le h
  rw [List.take_length_add_append]
  cases k with
  | zero => exact ⟨after, by rw [List.take_zero, List.append_nil, List.append_assoc]; rfl⟩
  | succ k =>
    refine ⟨rest.take k ++ [0] ++ after, ?_⟩
    rw [List.take_succ_cons, List.append_assoc, List.append_assoc, List.append_assoc]
    rfl

/-- what `nis_call_ecr` does with a message that is not empty and has a length -/
theorem nisCallEcr_stores {again : Bool} {logstr : Bytes} (hl : logstr.length = LOGSTR_SIZE)
    (h0 : 0 < d.message.length) (h1 : (d.message.length : Int) ≤ intMax) :
    nisCallEcr true again logstr d.fmt d.args
      = if d.message.length < LOGSTR_SIZE then
          .ok (if again then some (d.message.take (LOGSTR_SIZE - 2)) else none)
        else .error .bounds := by
  have hroom : LOGSTR_SIZE - 1 ≤ logstr.length := hl ▸ Nat.sub_le ..
  obtain ⟨rest, hrest, hv⟩ := vsnprintf_text (by decide) hroom d.format_message
  have htake : (d.message.take (LOGSTR_SIZE - 1 - 1)).length ≤ d.message.length :=
    List.length_take_le' ..
  have hbuf : (d.message.take (LOGSTR_SIZE - 1 - 1) ++ 0 :: rest).length = LOGSTR_SIZE := by
    rw [List.length_append, List.length_cons]
    omega
  have hpos : ¬ (d.message.length : Int) ≤ 0 := by omega
  unfold nisCallEcr
  rw [if_neg (by decide), hv, ok_bind]
  dsimp only
  rw [if_pos h1, if_neg hpos]
  by_cases hfit : d.message.length < LOGSTR_SIZE
  · have hstore := @memcpy_nat (d.message.take (LOGSTR_SIZE - 1 - 1) ++ 0 :: rest) [0]
      d.message.length 1 (by omega) (Nat.le_refl _)
    obtain ⟨rest', hterm⟩ := take_terminated htake rest
      ((d.message.take (LOGSTR_SIZE - 1 - 1) ++ 0 :: rest).drop (d.message.length + 1))
    rw [show List.take 1 [(0 : Byte)] = [0] from rfl, hterm] at hstore
    rw [if_pos hfit, show memcpy _ (d.message.length : Int) [0] 1 = _ from hstore, ok_bind]
    have hplain : 0 ∉ d.message.take (LOGSTR_SIZE - 1 - 1) := fun h =>
      d.message_plain (List.mem_of_mem_take h)
    rw [cstring_terminated hplain]
    cases again <;> rfl
  · have hbad : ¬ (0 ≤ (1 : Int) ∧ 0 ≤ (d.message.length : Int) ∧ (d.message.length : Int) + 1
        ≤ (d.message.take (LOGSTR_SIZE - 1 - 1) ++ 0 :: rest).length ∧ (1 : Int) ≤ [(0 : Byte)].length) := by
      rw [hbuf]
      omega
    rw [if_neg hfit, memcpy, if_neg hbad]
    rfl

/-- and with one that is empty, or too long for an `int` -/
theorem nisCallEcr_silent {again : Bool} {logstr : Bytes} (hl : logstr.length = LOGSTR_SIZE)
    (h : d.message.length = 0 ∨ intMax < d.message.length) :
    nisCallEcr true again logstr d.fmt d.args = .ok none := by
  have hroom : LOGSTR_SIZE - 1 ≤ logstr.length := hl ▸ Nat.sub_le ..
  obtain ⟨rest, -, hv⟩ := vsnprintf_text (by decide) hroom d.format_message
  have hle : (if (d.message.length : Int) ≤ intMax then (d.message.length : Int) else -1) ≤ 0 := by
    split
    · omega
    · decide
  unfold nisCallEcr
  rw [if_neg (by decide), hv, ok_bind]
  dsimp only
  rw [if_pos hle]
  rfl

/-- The message is contained if and only if its length fits. -/
theorem contained_iff : d.Contained ↔ Fits d.message.length := by
  by_cases hs : d.message.length = 0 ∨ intMax < d.message.length
  · refine ⟨fun _ => ?_, fun _ again logstr hl => ⟨none, nisCallEcr_silent hl hs, fun _ h => nomatch h⟩⟩
    refine hs.imp (fun h => ?_) id
    rw [h]
    decide
  · obtain ⟨h0, h1⟩ := not_or.mp hs
    have hpos : 0 < d.message.length := Nat.pos_of_ne_zero h0
    have hmax : (d.message.length : Int) ≤ intMax := Int.not_lt.mp h1
    constructor
    · intro hC
      obtain ⟨r, hr, -⟩ := hC true (List.replicate LOGSTR_SIZE 0) List.length_replicate
      rw [nisCallEcr_stores List.length_replicate hpos hmax] at hr
      by_contra hfit
      rw [if_neg fun h => hfit (.inl h)] at hr
      cases hr
    · intro hfit again logstr hl
      rw [nisCallEcr_stores hl hpos hmax, if_pos (hfit.resolve_right h1)]
      refine ⟨_, rfl, fun text ht => ?_⟩
      cases again with
      | false => cases ht
      | true =>
        rw [← Option.some.inj ht]
        exact List.take_prefix ..

/-- A message that is not contained has its terminator stored outside. -/
theorem overruns_of_not_contained (h : ¬ d.Contained) {again : Bool} {logstr : Bytes}
    (hl : logstr.length = LOGSTR_SIZE) : nisCallEcr true again logstr d.fmt d.args = .error .bounds := by
  rw [contained_iff, Fits, not_or] at h
  obtain ⟨hbig, hmax⟩ := h
  have hpos : 0 < d.message.length := Nat.lt_of_lt_of_le (by decide) (Nat.not_lt.mp hbig)
  rw [nisCallEcr_stores hl hpos (Int.not_lt.mp hmax), if_neg hbig]

/-- a message that the format and the arguments keep short -/
theorem contained_of_room (h : d.fmt.toList.length + (d.args.map Arg.room).sum < LOGSTR_SIZE) :
    d.Contained :=
  contained_iff.mpr (.inl (Nat.lt_of_le_of_lt (format_length_le d.format_message) h))

end EcrCall

end Swnet
