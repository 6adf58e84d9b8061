import LanguageClient.CommandLine.Run
import LanguageClient.Proofs.Decimal
import LanguageClient.Proofs.Header

namespace LanguageClient

namespace Duration

theorem toNanos_max : max.toNanos + 1 = (1 <<< 64) * 1000000000 := by decide

theorem toNanos_le (d : Duration) : d.toNanos ≤ max.toNanos := by
  have hsecs := d.secs_lt
  have hnanos := d.nanos_lt
  have hmax := toNanos_max
  rw [toNanos]
  omega

theorem toNanos_injective {a b : Duration} (h : a.toNanos = b.toNanos) : a = b := by
  obtain ⟨secs, nanos, _, hnanos⟩ := a
  obtain ⟨secs', nanos', _, hnanos'⟩ := b
  simp only [toNanos] at h
  obtain rfl : secs = secs' := by omega
  obtain rfl : nanos = nanos' := by omega
  rfl

theorem toNanos_saturatingMul (d : Duration) (n : UInt32) :
    (d.saturatingMul n).toNanos = min (d.toNanos * n.toNat) max.toNanos := by
  have hmax := toNanos_max
  have hproduct : d.toNanos * n.toNat =
      d.secs * n.toNat * 1000000000 + d.nanos * n.toNat := by
    rw [toNanos, Nat.add_mul, Nat.mul_right_comm]
  rw [saturatingMul, hproduct]
  split
  · rename_i hlt
    generalize max.toNanos = longest at hmax ⊢
    dsimp only [toNanos]
    omega
  · omega

theorem add?_eq_some_iff {a b sum : Duration} :
    a.add? b = some sum ↔ sum.toNanos = a.toNanos + b.toNanos := by
  have hadd : ∀ sum, a.add? b = some sum → sum.toNanos = a.toNanos + b.toNanos := by
    intro sum h
    rw [add?] at h
    split at h
    · cases h
      simp only [toNanos]
      omega
    · cases h
  refine ⟨hadd sum, fun h => ?_⟩
  cases hsum : a.add? b with
  | some other => rw [toNanos_injective (h.trans (hadd other hsum).symm)]
  | none =>
    rw [add?] at hsum
    split at hsum
    · cases hsum
    · have hle := sum.toNanos_le
      have hmax := toNanos_max
      rw [h, toNanos, toNanos] at hle
      omega

theorem isSome_add?_iff {a b : Duration} :
    (a.add? b).isSome = true ↔ a.toNanos + b.toNanos ≤ max.toNanos := by
  rw [Option.isSome_iff_exists]
  constructor
  · rintro ⟨sum, h⟩
    rw [← add?_eq_some_iff.1 h]
    exact sum.toNanos_le
  · intro h
    have hmax := toNanos_max
    refine ⟨⟨(a.toNanos + b.toNanos) / 1000000000, (a.toNanos + b.toNanos) % 1000000000,
      by omega, by omega⟩, add?_eq_some_iff.2 ?_⟩
    exact Nat.div_add_mod' _ _

end Duration

/-- How many milliseconds a budget asks for. -/
def PollBudget.millis (b : PollBudget) : Nat := b.attempts.toNat * b.intervalMs.toNat

theorem PollBudget.toNanos_total (b : PollBudget) :
    b.total.toNanos = min (b.millis * 1000000) Duration.max.toNanos := by
  rw [total, Duration.toNanos_saturatingMul, interval, Duration.toNanos_ofMillis, millis,
    Nat.mul_comm b.attempts.toNat, Nat.mul_right_comm]

namespace Decimal

theorem denotes_digits (n : Nat) : Denotes (digits n) n := by
  have h : Denotes (digits n) (value (digits n)) :=
    .plain (digits_ne_nil n) fun c hc => isDigit_of_mem_digits hc
  rwa [value_digits] at h

theorem exists_digits_eq_cons (n : Nat) :
    ∃ c cs, digits n = c :: cs ∧ isDigit c = true := by
  obtain ⟨c, cs, hcons⟩ := List.exists_cons_of_ne_nil (digits_ne_nil n)
  exact ⟨c, cs, hcons, isDigit_of_mem_digits (n := n) (hcons ▸ List.mem_cons_self)⟩

theorem readSigned?_digits (n : Nat) : readSigned? (digits n) = some (n : Int) := by
  have hread := readUnsigned?_eq_some_iff.2 (denotes_digits n)
  obtain ⟨c, cs, hcons, hc⟩ := exists_digits_eq_cons n
  rw [hcons] at hread ⊢
  rw [readSigned?, hread]
  · rfl
  · rintro _ ⟨⟩
    exact absurd hc (by decide)

end Decimal

namespace Options

theorem isDashed_render (n : Nat) : isDashed (Decimal.render n) = false := by
  obtain ⟨c, cs, hcons, hc⟩ := Decimal.exists_digits_eq_cons n
  rw [isDashed, Decimal.render, String.toList_ofList, hcons]
  split
  · rename_i h
    cases h
    exact absurd hc (by decide)
  · rfl

theorem Kind.read?_render32 (n : UInt32) :
    word32.read? (Decimal.render n.toNat) = some (.number n.toNat) := by
  have hword : (0 ≤ (n.toNat : Int) && (n.toNat : Int) < 1 <<< 32) = true := by
    have hlt : (n.toNat : Int) < 1 <<< 32 := Int.ofNat_lt.2 n.toNat_lt
    rw [Bool.and_eq_true, decide_eq_true_eq, decide_eq_true_eq]
    exact ⟨Int.natCast_nonneg _, hlt⟩
  rw [read?, Decimal.render, String.toList_ofList, Decimal.readSigned?_digits]
  dsimp only
  rw [if_pos hword, Int.toNat_natCast]

theorem Kind.read?_render64 (n : UInt64) :
    word64.read? (Decimal.render n.toNat) = some (.number n.toNat) := by
  have hlt : n.toNat < 1 <<< 64 := n.toNat_lt
  rw [read?, Decimal.render, String.toList_ofList,
    Decimal.readWord?_eq_some_iff.2 ⟨Decimal.denotes_digits _, hlt⟩]
  rfl

end Options

namespace Settings

open Options

def budgetFlags (b : PollBudget) : List String :=
  ["--completion-attempts", Decimal.render b.attempts.toNat,
    "--completion-interval-ms", Decimal.render b.intervalMs.toNat]

theorem read_budgetFlags (b : PollBudget) :
    form.read (budgetFlags b) = .ok {
      options := [("--completion-attempts", .number b.attempts.toNat),
        ("--completion-interval-ms", .number b.intervalMs.toNat)] } := by
  have hitems (attempts interval : String) (hattempts : isDashed attempts = false)
      (hinterval : isDashed interval = false) :
      items form ["--completion-attempts", attempts, "--completion-interval-ms", interval] =
        [.option "--completion-attempts" attempts,
          .option "--completion-interval-ms" interval] := by
    change (if isDashed attempts then _ else _ :: if isDashed interval then _ else _) = _
    rw [hattempts, hinterval]
    rfl
  have hattempts : form.options.lookup "--completion-attempts" = some .word32 := by decide
  have hinterval : form.options.lookup "--completion-interval-ms" = some .word64 := by decide
  rw [Form.read, budgetFlags, hitems _ _ (isDashed_render _) (isDashed_render _), Form.collect,
    hattempts, Option.bind_some, Kind.read?_render32]
  change form.collect { options := [("--completion-attempts", _)] } _ = _
  rw [Form.collect, hinterval, Option.bind_some, Kind.read?_render64]
  rfl

theorem readUInt32?_int (n : UInt32) : readUInt32? (.int n.toNat) = some n := by
  have hlt : n.toNat < 1 <<< 32 := n.toNat_lt
  rw [readUInt32?, readNat?, Json.asNat?, if_pos (Int.natCast_nonneg _), Int.toNat_natCast,
    Option.filter_some, if_pos (decide_eq_true hlt), Option.map_some, UInt32.ofNat_toNat]

theorem readUInt64?_int (n : UInt64) : readUInt64? (.int n.toNat) = some n := by
  have hlt : n.toNat < 1 <<< 64 := n.toNat_lt
  rw [readUInt64?, readNat?, Json.asNat?, if_pos (Int.natCast_nonneg _), Int.toNat_natCast,
    Option.filter_some, if_pos (decide_eq_true hlt), Option.map_some, UInt64.ofNat_toNat]

/-- Where nothing else gives settings every budget of the request can be asked for. -/
theorem exists_load_budgetFlags (b : PollBudget) :
    ∃ settings, load { nodes := [] } [] ("tether" :: budgetFlags b) = .ok settings ∧
      settings.completion = b := by
  let layer : Layer := [("completion_attempts", .int b.attempts.toNat),
    ("completion_interval_ms", .int b.intervalMs.toNat)]
  have hload : load { nodes := [] } [] ("tether" :: budgetFlags b) = ofLayers [layer, []] := by
    rw [load, List.drop_one, List.tail_cons, read_budgetFlags]
    rfl
  have hdecisive (key : Key) : decisive? [layer, []] key = layer.lookup key.name := rfl
  have hattempts : layer.lookup Key.completionAttempts.name = some (.int b.attempts.toNat) := rfl
  have hinterval : layer.lookup Key.completionInterval.name = some (.int b.intervalMs.toNat) := rfl
  have hnone (key : Key) (hne : key ≠ .completionAttempts) (hne' : key ≠ .completionInterval) :
      layer.lookup key.name = none := by
    cases key with
    | completionAttempts => exact absurd rfl hne
    | completionInterval => exact absurd rfl hne'
    | command language => cases language <;> rfl
    | _ => rfl
  rw [hload, ofLayers]
  simp only [value, hdecisive, hattempts, hinterval, readUInt32?_int, readUInt64?_int, hnone, ne_eq,
    reduceCtorEq, not_false_eq_true]
  exact ⟨_, rfl, rfl⟩

end Settings

namespace CommandLine

theorem toNanos_settleSlack : settleSlack.toNanos = 1000000000 := Duration.toNanos_ofMillis 1000

theorem isSome_wait_iff (b : PollBudget) :
    (b.total.add? settleSlack).isSome = true ↔ b.millis + 1000 < 1000 * (1 <<< 64) := by
  have hmax := Duration.toNanos_max
  rw [Duration.isSome_add?_iff, b.toNanos_total, toNanos_settleSlack]
  omega

/-- Budgets are exact up to the longest span. A run whose wait for a request, a second longer, is
not longer than that can measure it exactly, and no other run can. A run can ask for every
budget. -/
theorem measures_wait_iff (b : PollBudget) :
    b.total.toNanos = min (b.millis * 1000000) Duration.max.toNanos ∧
      (∀ wait, b.total.add? settleSlack = some wait ↔
        wait.toNanos = (b.millis + 1000) * 1000000) ∧
      ((b.total.add? settleSlack).isSome = true ↔ b.millis + 1000 < 1000 * (1 <<< 64)) ∧
      ∃ arguments settings, Settings.load { nodes := [] } [] arguments = .ok settings ∧
        settings.config.completion = b := by
  have htotal := b.toNanos_total
  refine ⟨htotal, fun wait => ?_, isSome_wait_iff b, ?_⟩
  · have hwait := wait.toNanos_le
    have hmax := Duration.toNanos_max
    rw [Duration.add?_eq_some_iff, htotal, toNanos_settleSlack]
    omega
  · obtain ⟨settings, hload, hcompletion⟩ := Settings.exists_load_budgetFlags b
    exact ⟨_, settings, hload, hcompletion⟩

/-- A budget may be exact where the wait for the request is too long to be measured. -/
theorem unmeasured_wait :
    ∃ settings,
      Settings.load { nodes := [] } [] ["tether", "--completion-attempts", "1000",
        "--completion-interval-ms", "18446744073709551615"] = .ok settings ∧
      settings.config.completion.total.toNanos < Duration.max.toNanos ∧
      settings.config.completion.total.add? settleSlack = none := by
  obtain ⟨settings, hload, hcompletion⟩ :=
    Settings.exists_load_budgetFlags ⟨1000, 18446744073709551615⟩
  have hconfig : settings.config.completion = ⟨1000, 18446744073709551615⟩ := hcompletion
  have hlong : ¬ PollBudget.millis ⟨1000, 18446744073709551615⟩ + 1000 < 1000 * (1 <<< 64) := by
    decide
  refine ⟨settings, hload, ?_, ?_⟩
  · rw [hconfig, PollBudget.toNanos_total]
    decide
  · rw [hconfig, ← Option.not_isSome_iff_eq_none, isSome_wait_iff]
    exact hlong

end CommandLine

end LanguageClient
