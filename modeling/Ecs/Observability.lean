/-
# The Prometheus collector and the text it writes

`PrometheusWorkGroupCollector` (`NewPrometheusWorkGroupCollector`,
`ObserveWorkGroup`, `WriteMetrics` and `writeMetricsLocked`) and `modeLabel`.

The collector keeps one sample per key (group id, mode label, async flag),
and `writeMetricsLocked` prints four families: a summary of durations and
three counters, each key's lines in the order its sort gives.  The sample's
fields are `float64`s (`Ecs.Float64`): the duration sum adds each
`Duration.Seconds()` as Go's `+=` rounds it, a bucket counts the durations
whose seconds are `<=` its bound's, and `%f` prints each value's exact
decimal expansion rounded to six places.  Over any run of observations a
key's sample is the one-pass aggregate of the summaries filed under it
(`observe_run_aggregates`): the rounded running sum of their seconds, in the
order they were observed, and their counts and system totals exactly, as long
as those stay within `2 ^ 53`, where a `float64` still holds every integer.

The format's reader is stated on the side, from the text exposition format:
lines split at newlines, `# TYPE` lines declaring a family's type, sample
lines of a name, an optional brace of label pairs whose values unescape
`\\`, `\"` and `\n`, and a value; a sample belongs to its family as its type
asks (`fitsType`).  What the collector writes is read back by it, label
pairs (`readLabels_render`), `%f` values (`isValue_formatF`) and sample lines
(`readSample_line`) alike, when the ids are plain: free of backslashes,
double quotes and newlines.  So a collector without buckets whose keys are
plain writes well-formed exposition, each sample line carrying its sample's
id (`valid_writeMetrics`, `workGroupIDs_writeMetrics`).  The label values are
printed with `%s`, though, and the configured buckets under a family declared
a summary, so `writeMetrics_breaks_exposition` finds, past those bounds, texts
that do not read, or read with another id, and buckets that do not fit their
family.
-/

import Ecs.Scheduler.Register
import Ecs.Float64

namespace Ecs

/-- The fields of Go's `WorkGroupSummary` that `ObserveWorkGroup` reads: the
`time.Duration` in nanoseconds and the `int` counts. -/
structure WorkGroupSummary where
  workGroupID : WorkGroupID
  mode : WorkGroupMode
  async : Bool
  duration : ℤ
  systemsExecuted : ℤ
  systemsSkipped : ℤ
  error : Option Error

/-- Go's `modeLabel`. -/
def modeLabel : WorkGroupMode → String
  | .async => "async"
  | .synchronized => "sync"

/-- Go's `prometheusKey`. -/
structure PrometheusKey where
  workGroupID : String
  mode : String
  async : Bool
deriving DecidableEq, Repr

/-- Go's `prometheusSample`. -/
structure PrometheusSample where
  durationSum : Float64
  durationCount : Float64
  buckets : List Float64
  executed : Float64
  skipped : Float64
  errors : Float64
deriving DecidableEq, Repr

/-- Go's `PrometheusWorkGroupCollector`: its options' `DurationBuckets` and
its samples by key.  The options' `Writer`, which receives what
`writeMetricsLocked` writes after each observation, is left out. -/
structure PrometheusWorkGroupCollector where
  durationBuckets : List ℤ
  samples : List (PrometheusKey × PrometheusSample)

/-- Go's `NewPrometheusWorkGroupCollector`; nil options have no buckets. -/
def newPrometheusWorkGroupCollector (durationBuckets : List ℤ) : PrometheusWorkGroupCollector :=
  ⟨durationBuckets, []⟩

namespace PrometheusWorkGroupCollector

open Float64

/-- The sample `ObserveWorkGroup` makes for a key it has not seen: zeroed,
with one bucket per configured bucket. -/
def newSample (c : PrometheusWorkGroupCollector) : PrometheusSample :=
  ⟨zero, zero, c.durationBuckets.map fun _ => zero, zero, zero, zero⟩

/-- Go's `ObserveWorkGroup`. -/
def observeWorkGroup (c : PrometheusWorkGroupCollector) (summary : WorkGroupSummary) :
    PrometheusWorkGroupCollector :=
  let key : PrometheusKey := ⟨summary.workGroupID, modeLabel summary.mode, summary.async⟩
  let sample := (c.samples.lookup key).getD c.newSample
  let durSeconds := seconds summary.duration
  let sample' : PrometheusSample :=
    { durationSum := add sample.durationSum durSeconds
      durationCount := add sample.durationCount (ofInt 1)
      buckets := (sample.buckets.zip c.durationBuckets).map fun nb =>
        if le durSeconds (seconds nb.2) then add nb.1 (ofInt 1) else nb.1
      executed := add sample.executed (ofInt summary.systemsExecuted)
      skipped := add sample.skipped (ofInt summary.systemsSkipped)
      errors := if summary.error.isSome then add sample.errors (ofInt 1) else sample.errors }
  { c with samples := c.samples.filter (·.1 ≠ key) ++ [(key, sample')] }

/-! ### What a collector counts -/

/-- The key `ObserveWorkGroup` files a summary under. -/
def summaryKey (summary : WorkGroupSummary) : PrometheusKey :=
  ⟨summary.workGroupID, modeLabel summary.mode, summary.async⟩

/-- The sample a key should hold, computed in one pass over the summaries filed
under it: the `float64` sum of their durations' seconds, added in order, and
as integers their number, for each configured bucket the number whose seconds
are `<=` its bound's, the sums of executed and skipped systems, and the number
that carried an error. -/
def aggregate (durationBuckets : List ℤ) (summaries : List WorkGroupSummary) : PrometheusSample :=
  ⟨(summaries.map (seconds ·.duration)).foldl add zero, ofInt summaries.length,
    durationBuckets.map (fun b => ofInt (summaries.countP fun x => le (seconds x.duration) (seconds b))),
    ofInt (summaries.map (·.systemsExecuted)).sum, ofInt (summaries.map (·.systemsSkipped)).sum,
    ofInt (summaries.countP (·.error.isSome))⟩

/-- Summaries whose counts a `float64` holds exactly: at most `2 ^ 53` of
them, with nonnegative system counts whose sums stay within `2 ^ 53`. -/
structure ExactCounts (summaries : List WorkGroupSummary) : Prop where
  length_le : summaries.length ≤ 2 ^ 53
  nonneg : ∀ x ∈ summaries, 0 ≤ x.systemsExecuted ∧ 0 ≤ x.systemsSkipped
  executed_le : (summaries.map (·.systemsExecuted)).sum ≤ 2 ^ 53
  skipped_le : (summaries.map (·.systemsSkipped)).sum ≤ 2 ^ 53

theorem sum_le_of_sublist {l₁ l₂ : List WorkGroupSummary} (hs : l₁.Sublist l₂) (f : WorkGroupSummary → ℤ)
    (h : ∀ x ∈ l₂, 0 ≤ f x) : (l₁.map f).sum ≤ (l₂.map f).sum :=
  (hs.map f).sum_le_sum fun x hx => by
    obtain ⟨y, hy, rfl⟩ := List.mem_map.1 hx
    exact h y hy

/-- A sublist of summaries with exact counts has exact counts. -/
theorem ExactCounts.sublist {l₁ l₂ : List WorkGroupSummary} (h : ExactCounts l₂) (hs : l₁.Sublist l₂) :
    ExactCounts l₁ :=
  ⟨hs.length_le.trans h.length_le, fun x hx => h.nonneg x (hs.subset hx),
    (sum_le_of_sublist hs _ fun x hx => (h.nonneg x hx).1).trans h.executed_le,
    (sum_le_of_sublist hs _ fun x hx => (h.nonneg x hx).2).trans h.skipped_le⟩

theorem zip_map_self {β γ : Type} (f : β → γ) (l : List β) :
    (l.map f).zip l = l.map fun b => (f b, b) := by
  induction l with
  | nil => rfl
  | cons b l ih => simp [ih]

/-- A count held in a `float64` goes up by one exactly while it stays within
`2 ^ 53`. -/
theorem add_ofInt_one {n : ℕ} (h : n + 1 ≤ 2 ^ 53) :
    add (ofInt n) (ofInt 1) = ofInt ((n + 1 : ℕ) : ℤ) :=
  add_ofInt (Int.natCast_nonneg _) zero_le_one (by omega)

/-- **Observing one more summary under a key turns the key's aggregate into
that of the longer list**, while the longer list's counts are exact. -/
theorem observe_aggregate (bs : List ℤ) (l : List WorkGroupSummary) (summary : WorkGroupSummary)
    (hx : ExactCounts (l ++ [summary])) :
    ({ durationSum := add (aggregate bs l).durationSum (seconds summary.duration)
       durationCount := add (aggregate bs l).durationCount (ofInt 1)
       buckets := ((aggregate bs l).buckets.zip bs).map fun nb =>
         if le (seconds summary.duration) (seconds nb.2) then add nb.1 (ofInt 1) else nb.1
       executed := add (aggregate bs l).executed (ofInt summary.systemsExecuted)
       skipped := add (aggregate bs l).skipped (ofInt summary.systemsSkipped)
       errors := if summary.error.isSome then add (aggregate bs l).errors (ofInt 1)
         else (aggregate bs l).errors } : PrometheusSample) =
      aggregate bs (l ++ [summary]) := by
  have hlen : l.length + 1 ≤ 2 ^ 53 := by simpa using hx.length_le
  have hcount : ∀ p : WorkGroupSummary → Bool, l.countP p + 1 ≤ 2 ^ 53 :=
    fun p => (Nat.add_le_add_right (List.countP_le_length p) 1).trans hlen
  have hl := hx.sublist (List.sublist_append_left l [summary])
  have hsx := hx.nonneg summary (List.mem_append_right l (List.mem_singleton_self _))
  -- a system total goes up by the summary's count, exactly
  have hsum : ∀ f : WorkGroupSummary → ℤ, (∀ x ∈ l, 0 ≤ f x) → 0 ≤ f summary →
      ((l ++ [summary]).map f).sum ≤ 2 ^ 53 →
      add (ofInt (l.map f).sum) (ofInt (f summary)) = ofInt ((l ++ [summary]).map f).sum :=
    fun f hf hs hle => by
      rw [List.map_append, List.sum_append, List.map_singleton, List.sum_singleton] at hle ⊢
      exact add_ofInt (List.sum_nonneg fun y hy => by
        obtain ⟨x, hx, rfl⟩ := List.mem_map.1 hy; exact hf x hx) hs hle
  -- a count goes up by one when the summary counts
  have hone : ∀ p : WorkGroupSummary → Bool,
      (if p summary then add (ofInt (l.countP p)) (ofInt 1) else ofInt (l.countP p)) =
        ofInt ((l ++ [summary]).countP p) := fun p => by
    rw [List.countP_append, List.countP_singleton]
    split_ifs
    · exact add_ofInt_one (hcount p)
    · rfl
  rw [aggregate, aggregate, PrometheusSample.mk.injEq]
  dsimp only
  refine ⟨by rw [List.map_append, List.map_singleton, List.foldl_append, List.foldl_cons,
      List.foldl_nil], ?_, ?_,
    hsum (·.systemsExecuted) (fun x hx => (hl.nonneg x hx).1) hsx.1 hx.executed_le,
    hsum (·.systemsSkipped) (fun x hx => (hl.nonneg x hx).2) hsx.2 hx.skipped_le,
    hone (·.error.isSome)⟩
  · rw [List.length_append, List.length_singleton]
    exact add_ofInt_one hlen
  · rw [zip_map_self, List.map_map]
    refine List.map_congr_left fun b _ => ?_
    dsimp only [Function.comp]
    exact hone fun x => le (seconds x.duration) (seconds b)

/-- A key that has not been seen starts from the aggregate of no summary. -/
theorem newSample_eq (c : PrometheusWorkGroupCollector) :
    c.newSample = aggregate c.durationBuckets [] := by
  simp [newSample, aggregate, ofInt_zero]

theorem observeWorkGroup_durationBuckets (c : PrometheusWorkGroupCollector) (summary : WorkGroupSummary) :
    (c.observeWorkGroup summary).durationBuckets = c.durationBuckets := rfl

/-- `ObserveWorkGroup` on a key whose sample is the aggregate of `l`: the key's
other entries are dropped and the aggregate of `l` and the summary is added. -/
theorem observeWorkGroup_samples {c : PrometheusWorkGroupCollector} {summary : WorkGroupSummary}
    {l : List WorkGroupSummary}
    (hs : (c.samples.lookup (summaryKey summary)).getD c.newSample = aggregate c.durationBuckets l)
    (hx : ExactCounts (l ++ [summary])) :
    (c.observeWorkGroup summary).samples = c.samples.filter (·.1 ≠ summaryKey summary) ++
      [(summaryKey summary, aggregate c.durationBuckets (l ++ [summary]))] := by
  simp only [summaryKey] at hs ⊢
  simp only [observeWorkGroup, hs, observe_aggregate _ _ _ hx]

/-- The collector holds each key once; a key that a summary of `l` is filed
under holds the aggregate of those summaries, in order; any other key holds
nothing. -/
structure Aggregates (c : PrometheusWorkGroupCollector) (l : List WorkGroupSummary) : Prop where
  nodup : (c.samples.map Prod.fst).Nodup
  lookup : ∀ k, c.samples.lookup k =
    if (l.filter (summaryKey · = k)).isEmpty then none
    else some (aggregate c.durationBuckets (l.filter (summaryKey · = k)))

theorem aggregates_new (durationBuckets : List ℤ) :
    Aggregates (newPrometheusWorkGroupCollector durationBuckets) [] :=
  ⟨List.nodup_nil, fun _ => rfl⟩

theorem lookup_filter_ne {β : Type} (l : List (PrometheusKey × β)) {k k₀ : PrometheusKey}
    (h : k ≠ k₀) : (l.filter (·.1 ≠ k₀)).lookup k = l.lookup k := by
  induction l with
  | nil => rfl
  | cons p l ih =>
    obtain ⟨k', b⟩ := p
    by_cases hk : k' = k₀
    · subst hk
      rw [List.filter_cons_of_neg (by simp), ih, List.lookup_cons]
      simp only [beq_false_of_ne h]
    · rw [List.filter_cons_of_pos (by simpa using hk), List.lookup_cons, List.lookup_cons, ih]

/-- **One observation keeps `Aggregates`**, with the summary added last. -/
theorem Aggregates.observe {c : PrometheusWorkGroupCollector} {l : List WorkGroupSummary}
    (h : Aggregates c l) {summary : WorkGroupSummary} (hx : ExactCounts (l ++ [summary])) :
    Aggregates (c.observeWorkGroup summary) (l ++ [summary]) := by
  have hsample : (c.samples.lookup (summaryKey summary)).getD c.newSample =
      aggregate c.durationBuckets (l.filter (summaryKey · = summaryKey summary)) := by
    rw [h.lookup]
    split_ifs with he
    · rw [List.isEmpty_iff.1 he, newSample_eq]; rfl
    · rfl
  have hobs := observeWorkGroup_samples hsample
    (hx.sublist ((List.filter_sublist l).append (List.Sublist.refl _)))
  constructor
  · rw [hobs, List.map_append]
    refine List.nodup_append.2 ⟨h.nodup.sublist ((List.filter_sublist _).map _),
      List.nodup_singleton _, List.disjoint_singleton.2 fun hm => ?_⟩
    obtain ⟨p, hp, he⟩ := List.mem_map.1 hm
    have := (List.mem_filter.1 hp).2
    simp only [decide_eq_true_eq, ne_eq] at this
    exact this he
  · intro k
    rw [hobs, List.lookup_append, observeWorkGroup_durationBuckets, List.filter_append,
      List.filter_singleton]
    by_cases hk : k = summaryKey summary
    · subst hk
      have hnone : (c.samples.filter (·.1 ≠ summaryKey summary)).lookup (summaryKey summary) =
          none := List.lookup_eq_none_iff.2 fun p hp => by
        have := (List.mem_filter.1 hp).2
        simp only [decide_eq_true_eq, ne_eq] at this
        exact bne_iff_ne.2 fun h => this h.symm
      have hne : (List.filter (summaryKey · = summaryKey summary) l ++ [summary]).isEmpty = false := by
        simp
      rw [hnone, Option.none_or, List.lookup_cons_self]
      simp only [decide_True, cond_true, hne]
      rfl
    · have hne : decide (summaryKey summary = k) = false := decide_eq_false (Ne.symm hk)
      have hl : [(summaryKey summary, aggregate c.durationBuckets
          (l.filter (summaryKey · = summaryKey summary) ++ [summary]))].lookup k = none :=
        List.lookup_eq_none_iff.2 fun p hp => by
          rw [List.mem_singleton.1 hp]; exact bne_iff_ne.2 hk
      rw [lookup_filter_ne _ hk, h.lookup, hne, cond_false, List.append_nil, hl, Option.or_none]

/-- **What the collector counts.**  After any sequence of observations from
`NewPrometheusWorkGroupCollector` with any duration buckets, of summaries
whose counts a `float64` holds exactly, the collector holds each key once, a
key exactly when a summary was filed under it, and for each key the `float64`
running sum of the seconds of the summaries filed under it, in the order
observed, and exactly their number, for each bucket the number whose seconds
are `<=` the bucket's, the sums of their executed and skipped systems, and the
number that carried an error. -/
theorem observe_run_aggregates (durationBuckets : List ℤ) (summaries : List WorkGroupSummary)
    (hx : ExactCounts summaries) :
    ((summaries.foldl observeWorkGroup (newPrometheusWorkGroupCollector durationBuckets)).samples.map
        Prod.fst).Nodup ∧
      ∀ k, (summaries.foldl observeWorkGroup
          (newPrometheusWorkGroupCollector durationBuckets)).samples.lookup k =
        if (summaries.filter (summaryKey · = k)).isEmpty then none
        else some (aggregate durationBuckets (summaries.filter (summaryKey · = k))) := by
  suffices ∀ (L : List WorkGroupSummary) (c : PrometheusWorkGroupCollector) (l : List WorkGroupSummary),
      Aggregates c l → ExactCounts (l ++ L) → Aggregates (L.foldl observeWorkGroup c) (l ++ L) ∧
        (L.foldl observeWorkGroup c).durationBuckets = c.durationBuckets by
    obtain ⟨h, hb⟩ := this summaries _ [] (aggregates_new durationBuckets) hx
    exact ⟨h.nodup, fun k => by rw [h.lookup, hb]; rfl⟩
  intro L
  induction L with
  | nil => intro c l h _; exact ⟨by simpa using h, rfl⟩
  | cons x L ih =>
    intro c l h hl
    have hl' : ExactCounts ((l ++ [x]) ++ L) := by simpa using hl
    obtain ⟨h', hb⟩ := ih _ _ (h.observe (hl'.sublist (List.sublist_append_left _ _))) hl'
    exact ⟨by simpa using h', hb⟩

theorem observe_run_aggregates_on_bucket :
    ExactCounts [⟨"wg", .synchronized, false, 5000000, 2, 0, none⟩,
      ⟨"wg", .synchronized, false, 2000000000, 1, 1, some .canceled⟩] ∧
    ((([⟨"wg", .synchronized, false, 5000000, 2, 0, none⟩,
      ⟨"wg", .synchronized, false, 2000000000, 1, 1, some .canceled⟩] : List WorkGroupSummary).foldl
        observeWorkGroup (newPrometheusWorkGroupCollector [1000000000])).samples.map
        Prod.fst).Nodup ∧
      ∀ k, (([⟨"wg", .synchronized, false, 5000000, 2, 0, none⟩,
        ⟨"wg", .synchronized, false, 2000000000, 1, 1, some .canceled⟩] : List WorkGroupSummary).foldl
          observeWorkGroup (newPrometheusWorkGroupCollector [1000000000])).samples.lookup k =
        if (([⟨"wg", .synchronized, false, 5000000, 2, 0, none⟩,
          ⟨"wg", .synchronized, false, 2000000000, 1, 1, some .canceled⟩] : List WorkGroupSummary).filter
            (summaryKey · = k)).isEmpty then none
        else some (aggregate [1000000000] (([⟨"wg", .synchronized, false, 5000000, 2, 0, none⟩,
          ⟨"wg", .synchronized, false, 2000000000, 1, 1, some .canceled⟩] : List WorkGroupSummary).filter
            (summaryKey · = k))) :=
  have hx : ExactCounts [⟨"wg", .synchronized, false, 5000000, 2, 0, none⟩,
      ⟨"wg", .synchronized, false, 2000000000, 1, 1, some .canceled⟩] :=
    ⟨by simp, by simp, by simp, by simp⟩
  ⟨hx, observe_run_aggregates [1000000000] _ hx⟩

end PrometheusWorkGroupCollector

/-! ### The text `writeMetricsLocked` writes -/

/-- Go's `%t`. -/
def formatBool (b : Bool) : String := if b then "true" else "false"

/-- The labels `work_group_id="%s",mode="%s",async="%t"` of a key. -/
def labels (k : PrometheusKey) : String :=
  "work_group_id=\"" ++ k.workGroupID ++ "\",mode=\"" ++ k.mode ++ "\",async=\"" ++
    formatBool k.async ++ "\""

/-- A sample line, `name{labels} value`. -/
def sampleLine (name labelText value : String) : String :=
  name ++ "\x7b" ++ labelText ++ "\x7d " ++ value ++ "\n"

/-- A family's `# HELP` and `# TYPE` lines. -/
def familyHeader (name help type : String) : String :=
  "# HELP " ++ name ++ " " ++ help ++ "\n# TYPE " ++ name ++ " " ++ type ++ "\n"

/-- The order `writeMetricsLocked` sorts its keys in: by id, then by mode,
then the sync key first; strings compare as Go compares them, by code
point. -/
def keyLess (a b : PrometheusKey) : Bool :=
  if a.workGroupID = b.workGroupID then
    if a.mode = b.mode then !a.async && b.async else decide (a.mode.toList < b.mode.toList)
  else decide (a.workGroupID.toList < b.workGroupID.toList)

namespace PrometheusWorkGroupCollector

/-- The lines of the duration family for one key: its sum, its count, and a
`_bucket` line per configured bucket. -/
def durationLines (c : PrometheusWorkGroupCollector) (ks : PrometheusKey × PrometheusSample) :
    String :=
  sampleLine "ecs_work_group_duration_seconds_sum" (labels ks.1) (formatF ks.2.durationSum) ++
  sampleLine "ecs_work_group_duration_seconds_count" (labels ks.1) (formatF ks.2.durationCount) ++
  String.join ((ks.2.buckets.zip c.durationBuckets).map fun nb =>
    sampleLine "ecs_work_group_duration_seconds_bucket"
      (labels ks.1 ++ ",le=\"" ++ formatF (Float64.seconds nb.2) ++ "\"") (formatF nb.1))

/-- Go's `writeMetricsLocked`: the text it writes. -/
def writeMetrics (c : PrometheusWorkGroupCollector) : String :=
  let sorted := c.samples.insertionSort fun a b => keyLess a.1 b.1
  let counter (name help : String) (value : PrometheusSample → Float64) : String :=
    familyHeader name help "counter" ++
      String.join (sorted.map fun ks => sampleLine name (labels ks.1) (formatF (value ks.2)))
  familyHeader "ecs_work_group_duration_seconds" "Work group execution duration." "summary" ++
    String.join (sorted.map c.durationLines) ++
  counter "ecs_work_group_systems_executed_total" "Systems executed per work group." (·.executed) ++
  counter "ecs_work_group_systems_skipped_total" "Systems skipped per work group." (·.skipped) ++
  counter "ecs_work_group_errors_total" "Work group error count." (·.errors)

end PrometheusWorkGroupCollector

/-! ### Reading the text back, as the exposition format reads it -/

namespace Exposition

/-- A sample line as the format reads it: the metric name, the label pairs
with their values unescaped, and the value. -/
structure Sample where
  name : List Char
  labels : List (List Char × List Char)
  value : List Char
deriving DecidableEq, Repr

/-- The characters of a metric name. -/
def isNameChar (c : Char) : Bool := c.isAlphanum || c = '_' || c = ':'

/-- The characters of a label name. -/
def isLabelChar (c : Char) : Bool := c.isAlphanum || c = '_'

/-- What a backslash followed by `c` stands for in a label value. -/
def unescape : Char → Option Char
  | '\\' => some '\\'
  | '"' => some '"'
  | 'n' => some '\n'
  | _ => none

/-- A label value after its opening quote: the characters up to the closing
quote, unescaped, and what follows it; `none` at another escape or at the end
of the line. -/
def readLabelValue : List Char → Option (List Char × List Char)
  | [] => none
  | '"' :: rest => some ([], rest)
  | '\\' :: c :: rest =>
    match unescape c with
    | some c => (readLabelValue rest).map fun p => (c :: p.1, p.2)
    | none => none
  | c :: rest => (readLabelValue rest).map fun p => (c :: p.1, p.2)

/-- The label pairs after an opening brace, up to the closing one (a comma
may end the list), and what follows it. -/
def readLabels : ℕ → List Char → Option (List (List Char × List Char) × List Char)
  | 0, _ => none
  | _ + 1, '\x7d' :: rest => some ([], rest)
  | fuel + 1, cs =>
    match cs.span isLabelChar with
    | (name@(_ :: _), '=' :: '"' :: r) =>
      match readLabelValue r with
      | some (v, ',' :: r) => (readLabels fuel r).map fun p => ((name, v) :: p.1, p.2)
      | some (v, '\x7d' :: r) => some ([(name, v)], r)
      | _ => none
    | _ => none

/-- A number as `%f` writes it: digits, and a point followed by digits. -/
def isDecimal (v : List Char) : Bool :=
  match v.span Char.isDigit with
  | (_ :: _, []) => true
  | (_ :: _, '.' :: frac) => !frac.isEmpty && frac.all Char.isDigit
  | _ => false

/-- A value as the collector writes them: `NaN`, `+Inf`, `-Inf`, or a
decimal, with a minus sign when negative.  (The format's other float
spellings are never written.) -/
def isValue (v : List Char) : Bool :=
  v = "NaN".toList || v = "+Inf".toList || v = "-Inf".toList ||
    isDecimal (if v.head? = some '-' then v.tail else v)

/-- A sample line: a name, an optional brace of labels, a space and a value. -/
def readSample (line : List Char) : Option Sample :=
  match line.span isNameChar with
  | (name@(_ :: _), '\x7b' :: rest) =>
    match readLabels (rest.length + 1) rest with
    | some (ls, ' ' :: v) => if isValue v then some ⟨name, ls, v⟩ else none
    | _ => none
  | (name@(_ :: _), ' ' :: v) => if isValue v then some ⟨name, [], v⟩ else none
  | _ => none

/-- A `# TYPE name type` line. -/
def readType (line : List Char) : Option (List Char × List Char) :=
  if "# TYPE ".toList.isPrefixOf line then
    match (line.drop 7).span isNameChar with
    | (name, ' ' :: type) => some (name, type)
    | _ => none
  else none

/-- Whether a sample belongs to family `family` declared of type `type`: a
counter's (or gauge's, or untyped) samples carry its name; a summary's its
`_sum`, its `_count`, or its name with a `quantile` label; a histogram's its
`_sum`, its `_count`, or its `_bucket` with an `le` label. -/
def fitsType (family type : List Char) (s : Sample) : Bool :=
  if type = "counter".toList ∨ type = "gauge".toList ∨ type = "untyped".toList then
    s.name = family
  else if type = "summary".toList then
    s.name = family ++ "_sum".toList ∨ s.name = family ++ "_count".toList ∨
      (s.name = family ∧ s.labels.any (·.1 = "quantile".toList))
  else if type = "histogram".toList then
    s.name = family ++ "_sum".toList ∨ s.name = family ++ "_count".toList ∨
      (s.name = family ++ "_bucket".toList ∧ s.labels.any (·.1 = "le".toList))
  else false

/-- The lines of a text from the family last declared on: each is blank, a
comment, or a sample that reads and belongs to that family. -/
def validLines : Option (List Char × List Char) → List (List Char) → Bool
  | _, [] => true
  | fam, l :: ls =>
    match readType l with
    | some ft => validLines (some ft) ls
    | none =>
      if l.isEmpty ∨ l.head? = some '#' then validLines fam ls
      else
        match readSample l, fam with
        | some s, some (f, t) => fitsType f t s && validLines fam ls
        | some _, none => validLines fam ls
        | none, _ => false

/-- Whether a text is well-formed exposition: every line reads, and every
sample belongs to its family. -/
def valid (text : String) : Bool := validLines none (text.toList.splitOn '\n')

/-- The `work_group_id` values the sample lines of a text carry, read back. -/
def workGroupIDs (text : String) : List (List Char) :=
  (text.toList.splitOn '\n').filterMap fun l =>
    (readSample l).bind fun s => s.labels.lookup "work_group_id".toList

/-! ### What the reader makes of what the collector writes -/

/-- A label value the format needs no escape for: no backslash, no double
quote. -/
def Clean (v : List Char) : Prop := ∀ c ∈ v, c ≠ '\\' ∧ c ≠ '"'

instance (v : List Char) : Decidable (Clean v) :=
  inferInstanceAs (Decidable (∀ c ∈ v, c ≠ '\\' ∧ c ≠ '"'))

/-- **A clean value reads back as itself**, whatever follows its closing
quote. -/
theorem readLabelValue_clean : ∀ {v : List Char}, Clean v → ∀ rest,
    readLabelValue (v ++ '"' :: rest) = some (v, rest)
  | [], _, _ => rfl
  | c :: v, h, rest => by
    have hc := h c (List.mem_cons_self c v)
    rw [List.cons_append, readLabelValue.eq_4 _ _ hc.2 (fun _ _ h' _ => hc.1 h'),
      readLabelValue_clean (fun x hx => h x (List.mem_cons_of_mem c hx)) rest]
    rfl

/-- Reading while `p` holds stops at the first character it fails on. -/
theorem span_append_of_stop {p : Char → Bool} {l₁ l₂ : List Char} {c : Char}
    (h₁ : ∀ x ∈ l₁, p x) (h₂ : p c = false) : (l₁ ++ c :: l₂).span p = (l₁, c :: l₂) := by
  rw [List.span_eq_take_drop, List.takeWhile_append_of_pos h₁, List.dropWhile_append_of_pos h₁]
  simp [h₂]

/-- Label pairs as the collector prints them: `name="value"`, joined by
commas. -/
def renderLabels : List (List Char × List Char) → List Char
  | [] => []
  | [(n, v)] => n ++ '=' :: '"' :: v ++ ['"']
  | (n, v) :: ps => n ++ '=' :: '"' :: v ++ '"' :: ',' :: renderLabels ps

/-- A label pair the format can carry as the collector prints it: a nonempty
name of label characters and a clean value. -/
def PairOk (p : List Char × List Char) : Prop :=
  p.1 ≠ [] ∧ (∀ c ∈ p.1, isLabelChar c) ∧ Clean p.2

/-- The reader, at one pair: it reads the value after the pair's opening
quote, then goes on at a comma or stops at the closing brace. -/
theorem readLabels_pair (fuel : ℕ) {n v : List Char} (h : PairOk (n, v)) (r : List Char) :
    readLabels (fuel + 1) (n ++ '=' :: '"' :: v ++ '"' :: r) =
      match readLabelValue (v ++ '"' :: r) with
      | some (v, ',' :: r) => (readLabels fuel r).map fun p => ((n, v) :: p.1, p.2)
      | some (v, '\x7d' :: r) => some ([(n, v)], r)
      | _ => none := by
  obtain ⟨hne, hn, -⟩ := h
  obtain ⟨c, n', rfl⟩ := List.exists_cons_of_ne_nil hne
  have hc : c ≠ '\x7d' := fun h' => by simpa [h', isLabelChar] using hn c (List.mem_cons_self _ _)
  have hs := @span_append_of_stop isLabelChar (c :: n') ('"' :: (v ++ '"' :: r)) '=' hn
    (by decide)
  simp only [List.cons_append, List.append_assoc] at hs ⊢
  rw [← Nat.succ_eq_add_one, readLabels.eq_3 _ _ (fun _ h' => hc (List.cons.inj h').1), hs]
  rfl

/-- **Label pairs read back.**  The reader returns the pairs the collector
printed, and what follows the closing brace, given the fuel `readSample`
gives it. -/
theorem readLabels_render : ∀ {ps : List (List Char × List Char)} {fuel : ℕ},
    (∀ p ∈ ps, PairOk p) → ps.length < fuel → ∀ rest,
    readLabels fuel (renderLabels ps ++ '\x7d' :: rest) = some (ps, rest)
  | [], _ + 1, _, _, _ => rfl
  | [(n, v)], fuel + 1, h, _, rest => by
    have hp := h _ (List.mem_singleton_self _)
    have := readLabels_pair fuel hp ('\x7d' :: rest)
    rw [readLabelValue_clean hp.2.2] at this
    simpa [renderLabels] using this
  | (n, v) :: q :: ps, fuel + 1, h, hlen, rest => by
    have hp := h _ (List.mem_cons_self _ _)
    have := readLabels_pair fuel hp (',' :: (renderLabels (q :: ps) ++ '\x7d' :: rest))
    rw [readLabelValue_clean hp.2.2] at this
    simp only [@readLabels_render (q :: ps) fuel (fun p hp => h p (List.mem_cons_of_mem _ hp))
        (by simp at hlen ⊢; omega), Option.map_some'] at this
    simpa [renderLabels] using this

/-- The labels of a key, as pairs. -/
def keyLabels (k : PrometheusKey) : List (List Char × List Char) :=
  [("work_group_id".toList, k.workGroupID.toList), ("mode".toList, k.mode.toList),
    ("async".toList, (formatBool k.async).toList)]

theorem labels_toList (k : PrometheusKey) : (labels k).toList = renderLabels (keyLabels k) := by
  simp [labels, keyLabels, renderLabels]

/-- **A key's labels read back** as its id, mode and async flag, when its id
and mode need no escape. -/
theorem readLabels_labels {k : PrometheusKey} (hid : Clean k.workGroupID.toList)
    (hmode : Clean k.mode.toList) {fuel : ℕ} (hfuel : 3 < fuel) (rest : List Char) :
    readLabels fuel ((labels k).toList ++ '\x7d' :: rest) = some (keyLabels k, rest) := by
  rw [labels_toList]
  refine readLabels_render (fun p hp => ?_) hfuel rest
  simp only [keyLabels, List.mem_cons, List.mem_singleton, List.not_mem_nil, or_false] at hp
  rcases hp with rfl | rfl | rfl
  · exact ⟨by simp, by simp only; decide, hid⟩
  · exact ⟨by simp, by simp only; decide, hmode⟩
  · refine ⟨by simp, by simp only; decide, ?_⟩
    cases k.async <;> decide

/-! ### The numbers `%f` writes -/

theorem isDigit_digitChar : ∀ d < 10, (Nat.digitChar d).isDigit := by decide

theorem isDigit_of_mem_toDigitsCore : ∀ (fuel n : ℕ) (acc : List Char) (c : Char),
    c ∈ Nat.toDigitsCore 10 fuel n acc → c ∈ acc ∨ c.isDigit
  | 0, _, _, _, h => .inl h
  | fuel + 1, n, acc, c, h => by
    simp only [Nat.toDigitsCore] at h
    have hd := isDigit_digitChar (n % 10) (Nat.mod_lt _ (by decide))
    split_ifs at h
    · rcases List.mem_cons.1 h with rfl | h
      · exact .inr hd
      · exact .inl h
    · rcases isDigit_of_mem_toDigitsCore fuel _ _ c h with h | h
      · rcases List.mem_cons.1 h with rfl | h
        · exact .inr hd
        · exact .inl h
      · exact .inr h

theorem toDigitsCore_ne_nil : ∀ (fuel n : ℕ) {acc : List Char}, acc ≠ [] →
    Nat.toDigitsCore 10 fuel n acc ≠ []
  | 0, _, _, h => h
  | fuel + 1, n, acc, _ => by
    simp only [Nat.toDigitsCore]
    split_ifs
    · simp
    · exact toDigitsCore_ne_nil fuel _ (List.cons_ne_nil _ _)

/-- The decimal digits of a natural: nonempty, and digits only. -/
theorem toString_digits (n : ℕ) :
    (toString n).toList ≠ [] ∧ ∀ c ∈ (toString n).toList, c.isDigit := by
  refine ⟨?_, fun c hc => ?_⟩
  · show Nat.toDigitsCore 10 (n + 1) n [] ≠ []
    simp only [Nat.toDigitsCore]
    split_ifs
    · simp
    · exact toDigitsCore_ne_nil n _ (List.cons_ne_nil _ _)
  · rcases isDigit_of_mem_toDigitsCore (n + 1) n [] c hc with h | h
    · simp at h
    · exact h

theorem isDecimal_digits_point {a b : List Char} (ha : a ≠ [] ∧ ∀ c ∈ a, c.isDigit)
    (hb : b ≠ [] ∧ ∀ c ∈ b, c.isDigit) : isDecimal (a ++ '.' :: b) := by
  obtain ⟨c, a', rfl⟩ := List.exists_cons_of_ne_nil ha.1
  rw [isDecimal, span_append_of_stop ha.2 (by decide)]
  simpa [List.all_eq_true] using ⟨hb.1, hb.2⟩

theorem formatMicros_toList (m : ℕ) : (formatMicros m).toList = (toString (m / 1000000)).toList ++
    '.' :: (List.replicate (6 - (toString (m % 1000000)).length) '0' ++
      (toString (m % 1000000)).toList) := by
  simp [formatMicros]

theorem isDecimal_formatMicros (m : ℕ) : isDecimal (formatMicros m).toList := by
  have h₁ := toString_digits (m / 1000000)
  have h₂ := toString_digits (m % 1000000)
  rw [formatMicros_toList]
  refine isDecimal_digits_point h₁ ⟨fun h => h₂.1 (List.append_eq_nil.1 h).2, fun c hc => ?_⟩
  simp only [List.mem_append, List.mem_replicate] at hc
  rcases hc with ⟨-, rfl⟩ | hc
  · decide
  · exact h₂.2 c hc

/-- `%f` of a finite value starts with a digit. -/
theorem formatMicros_head (m : ℕ) : ∃ c cs, (formatMicros m).toList = c :: cs ∧ c.isDigit := by
  obtain ⟨hne, hd⟩ := toString_digits (m / 1000000)
  obtain ⟨c, cs, he⟩ := List.exists_cons_of_ne_nil hne
  exact ⟨c, _, by rw [formatMicros_toList, he, List.cons_append], hd c (he ▸ List.mem_cons_self c cs)⟩

/-- **What `%f` writes is a value the format reads.** -/
theorem isValue_formatF (x : Float64) : isValue (formatF x).toList := by
  obtain ⟨c, cs, he, hc⟩ := formatMicros_head (Float64.roundHalfEven (x.mag * 10 ^ 6) (2 ^ 1074))
  have hd := isDecimal_formatMicros (Float64.roundHalfEven (x.mag * 10 ^ 6) (2 ^ 1074))
  rw [he] at hd
  unfold formatF
  split_ifs with hn hi hs hs
  · decide
  · decide
  · decide
  · have h : ("-" ++ formatMicros (Float64.roundHalfEven (x.mag * 10 ^ 6) (2 ^ 1074))).toList =
        '-' :: c :: cs := by rw [← he]; rfl
    simp only [isValue, h, Bool.or_eq_true]
    exact .inr hd
  · have h : ("" ++ formatMicros (Float64.roundHalfEven (x.mag * 10 ^ 6) (2 ^ 1074))).toList =
        c :: cs := by rw [← he]; rfl
    have hc' : c ≠ '-' := by rintro rfl; exact absurd hc (by decide)
    simp only [isValue, h, Bool.or_eq_true, List.head?_cons, Option.some.injEq, hc', if_false]
    exact .inr hd

/-! ### The text as lines -/

theorem intercalate_append_nil {α : Type} (x : α) : ∀ L : List (List α),
    [x].intercalate (L ++ [[]]) = L.flatMap (· ++ [x])
  | [] => rfl
  | [l] => by simp [List.intercalate]
  | l :: l' :: L => by
    have := intercalate_append_nil x (l' :: L)
    simp_all [List.intercalate]

/-- A text made of the lines `ls`, each ended by a newline and holding none. -/
def IsLines (text : String) (ls : List (List Char)) : Prop :=
  text.toList = ls.flatMap (· ++ ['\n']) ∧ ∀ l ∈ ls, '\n' ∉ l

namespace IsLines

theorem append {a b : String} {la lb : List (List Char)} (ha : IsLines a la)
    (hb : IsLines b lb) : IsLines (a ++ b) (la ++ lb) := by
  refine ⟨?_, fun l hl => (List.mem_append.1 hl).elim (ha.2 l) (hb.2 l)⟩
  rw [List.flatMap_append, ← ha.1, ← hb.1]
  exact String.data_append a b

theorem join_map {α : Type} {f : α → String} {g : α → List (List Char)} :
    ∀ {xs : List α}, (∀ x ∈ xs, IsLines (f x) (g x)) →
      IsLines (String.join (xs.map f)) (xs.flatMap g)
  | [], _ => ⟨rfl, by simp⟩
  | x :: xs, h => by
    have := (h x (List.mem_cons_self x xs)).append
      (join_map fun y hy => h y (List.mem_cons_of_mem x hy))
    refine ⟨?_, this.2⟩
    rw [List.flatMap_cons, ← this.1]
    simp only [String.toList, String.data_join, String.data_append, List.map_cons, List.flatten_cons]

/-- The exposition's lines are the text split at its newlines. -/
theorem splitOn {t : String} {ls : List (List Char)} (h : IsLines t ls) :
    t.toList.splitOn '\n' = ls ++ [[]] := by
  rw [h.1, ← intercalate_append_nil, List.splitOn_intercalate]
  · simp only [List.mem_append, List.mem_singleton]
    rintro l (hl | rfl)
    exacts [h.2 l hl, List.not_mem_nil _]
  · simp

end IsLines

theorem isLines_sampleLine {name labelText value : String} (hname : '\n' ∉ name.toList)
    (hl : '\n' ∉ labelText.toList) (hv : '\n' ∉ value.toList) :
    IsLines (sampleLine name labelText value)
      [name.toList ++ '\x7b' :: (labelText.toList ++ '\x7d' :: ' ' :: value.toList)] :=
  ⟨by simp [sampleLine], by simp_all⟩

/-- A family's two header lines. -/
def headerLines (name help type : String) : List (List Char) :=
  ["# HELP ".toList ++ name.toList ++ ' ' :: help.toList,
    "# TYPE ".toList ++ name.toList ++ ' ' :: type.toList]

theorem isLines_familyHeader {name help type : String}
    (h : ∀ l ∈ headerLines name help type, '\n' ∉ l) :
    IsLines (familyHeader name help type) (headerLines name help type) :=
  ⟨by simp [familyHeader, headerLines], h⟩

/-! ### Reading a family, line by line -/

theorem readType_cons {c : Char} (hc : c ≠ '#') (l : List Char) : readType (c :: l) = none := by
  simp [readType, List.isPrefixOf, hc.symm]

theorem readType_type {name : List Char} (hn : ∀ c ∈ name, isNameChar c) (type : List Char) :
    readType ("# TYPE ".toList ++ name ++ ' ' :: type) = some (name, type) := by
  have hs := @span_append_of_stop isNameChar name type ' ' hn (by decide)
  have hp : "# TYPE ".toList.isPrefixOf ("# TYPE ".toList ++ name ++ ' ' :: type) := by
    rw [List.append_assoc]; exact List.isPrefixOf_iff_prefix.2 (List.prefix_append _ _)
  have hd : ("# TYPE ".toList ++ (name ++ ' ' :: type)).drop 7 = name ++ ' ' :: type :=
    List.drop_left' rfl
  rw [readType, if_pos hp, List.append_assoc, hd, hs]
  rfl

/-- A type line declares the family the lines after it belong to. -/
theorem validLines_type {l : List Char} {ft : List Char × List Char} (h : readType l = some ft)
    (fam : Option (List Char × List Char)) (ls : List (List Char)) :
    validLines fam (l :: ls) = validLines (some ft) ls := by
  simp only [validLines, h]

/-- A sample line that reads and fits the family declared is passed over. -/
theorem validLines_sample {c : Char} {l : List Char} {s : Sample} (hc : c ≠ '#')
    (hs : readSample (c :: l) = some s) {f t : List Char} (hfit : fitsType f t s)
    (ls : List (List Char)) :
    validLines (some (f, t)) ((c :: l) :: ls) = validLines (some (f, t)) ls := by
  simp [validLines, readType_cons hc, hc, hs, hfit]

/-- Lines that are each passed over under one family are passed over together. -/
theorem validLines_append {fam : Option (List Char × List Char)} :
    ∀ {S : List (List Char)}, (∀ l ∈ S, ∀ ls, validLines fam (l :: ls) = validLines fam ls) →
      ∀ rest, validLines fam (S ++ rest) = validLines fam rest
  | [], _, _ => rfl
  | l :: S, h, rest => by
    rw [List.cons_append, h l (List.mem_cons_self l S),
      validLines_append (fun l' hl' => h l' (List.mem_cons_of_mem l hl'))]

/-- **A family's header declares it**: the help line is a comment, the type
line names the family and its type. -/
theorem validLines_header {name : String} (hn : ∀ c ∈ name.toList, isNameChar c)
    (help type : String) (fam : Option (List Char × List Char)) (rest : List (List Char)) :
    validLines fam (headerLines name help type ++ rest) =
      validLines (some (name.toList, type.toList)) rest := by
  have hhelp : ∀ ls, validLines fam (("# HELP ".toList ++ name.toList ++ ' ' :: help.toList) :: ls) =
      validLines fam ls := fun _ => rfl
  rw [headerLines, List.cons_append, List.cons_append, List.nil_append, hhelp,
    validLines_type (readType_type hn _)]

/-! ### Keys the format carries as they are -/

/-- A label value the format carries as it is: no backslash, no double quote,
no newline. -/
def PlainID (v : String) : Prop := Clean v.toList ∧ '\n' ∉ v.toList

instance (v : String) : Decidable (PlainID v) :=
  inferInstanceAs (Decidable (Clean v.toList ∧ '\n' ∉ v.toList))

/-- A key whose labels the format carries as they are. -/
def KeyOk (k : PrometheusKey) : Prop := PlainID k.workGroupID ∧ PlainID k.mode

theorem plainID_modeLabel (mode : WorkGroupMode) : PlainID (modeLabel mode) := by
  cases mode <;> decide

/-- A key's sample line, without its newline. -/
def keyLine (name : String) (k : PrometheusKey) (value : String) : List Char :=
  name.toList ++ '\x7b' :: ((labels k).toList ++ '\x7d' :: ' ' :: value.toList)

/-- A metric name as the format reads it. -/
def IsName (name : List Char) : Prop := name ≠ [] ∧ ∀ c ∈ name, isNameChar c

instance (name : List Char) : Decidable (IsName name) :=
  inferInstanceAs (Decidable (name ≠ [] ∧ ∀ c ∈ name, isNameChar c))

theorem newline_not_mem_formatMicros (m : ℕ) : '\n' ∉ (formatMicros m).toList := by
  have h₁ := (toString_digits (m / 1000000)).2 '\n'
  have h₂ := (toString_digits (m % 1000000)).2 '\n'
  simp only [formatMicros_toList, List.mem_append, List.mem_cons, List.mem_replicate]
  rintro (h | h | ⟨-, h⟩ | h)
  · exact absurd (h₁ h) (by decide)
  · exact absurd h (by decide)
  · exact absurd h (by decide)
  · exact absurd (h₂ h) (by decide)

theorem newline_not_mem_formatF (x : Float64) : '\n' ∉ (formatF x).toList := by
  have h := newline_not_mem_formatMicros (Float64.roundHalfEven (x.mag * 10 ^ 6) (2 ^ 1074))
  unfold formatF
  split_ifs
  · decide
  · decide
  · decide
  · rw [show ("-" ++ formatMicros _).toList = '-' :: (formatMicros _).toList from rfl]
    exact fun hm => (List.mem_cons.1 hm).elim (fun e => absurd e (by decide)) h
  · exact h

theorem formatF_ne_nil (x : Float64) : (formatF x).toList ≠ [] := fun h =>
  absurd (h ▸ isValue_formatF x) (by decide)

theorem newline_not_mem_labels {k : PrometheusKey} (hk : KeyOk k) : '\n' ∉ (labels k).toList := by
  have hb : '\n' ∉ (formatBool k.async).toList := by cases k.async <;> decide
  simp only [labels, String.toList, String.data_append, List.mem_append] at hb ⊢
  simpa [hb] using ⟨hk.1.2, hk.2.2⟩

theorem isLines_keyLine {name : String} (hname : '\n' ∉ name.toList) {k : PrometheusKey}
    (hk : KeyOk k) (x : Float64) :
    IsLines (sampleLine name (labels k) (formatF x)) [keyLine name k (formatF x)] :=
  isLines_sampleLine hname (newline_not_mem_labels hk) (newline_not_mem_formatF x)

/-- **A key's sample line reads back** as its name, its key's labels and its
value. -/
theorem readSample_line {name : List Char} (hname : IsName name)
    {k : PrometheusKey} (hid : Clean k.workGroupID.toList) (hmode : Clean k.mode.toList) (x : Float64) :
    readSample (name ++ '\x7b' :: ((labels k).toList ++ '\x7d' :: ' ' :: (formatF x).toList)) =
      some ⟨name, keyLabels k, (formatF x).toList⟩ := by
  obtain ⟨c, n, rfl⟩ := List.exists_cons_of_ne_nil hname.1
  have hfuel : 3 < ((labels k).toList ++ '\x7d' :: ' ' :: (formatF x).toList).length + 1 := by
    have := List.length_pos.2 (formatF_ne_nil x)
    simp only [List.length_append, List.length_cons]; omega
  rw [readSample, span_append_of_stop hname.2 (by decide)]
  simp only [readLabels_labels hid hmode hfuel, isValue_formatF, if_true]

theorem isNameChar_ne_hash {c : Char} (h : isNameChar c) : c ≠ '#' := by
  rintro rfl; exact absurd h (by decide)

/-- A key's sample line reads, as a sample of the family its name fits. -/
theorem validLines_keyLine {name : String} (hn : IsName name.toList) {k : PrometheusKey}
    (hk : KeyOk k) (x : Float64) {f t : List Char}
    (hfit : ∀ ls v, fitsType f t ⟨name.toList, ls, v⟩) (ls : List (List Char)) :
    validLines (some (f, t)) (keyLine name k (formatF x) :: ls) =
      validLines (some (f, t)) ls := by
  have hs := readSample_line hn hk.1.1 hk.2.1 x
  obtain ⟨c, n, hcn⟩ := List.exists_cons_of_ne_nil hn.1
  have hc := isNameChar_ne_hash (hn.2 c (hcn ▸ List.mem_cons_self c n))
  rw [keyLine]
  rw [hcn] at hs hfit ⊢
  exact validLines_sample hc hs (hfit _ _) ls

/-! ### The collector's text -/

/-- The samples in the order writeMetricsLocked writes them. -/
def sortedSamples (c : PrometheusWorkGroupCollector) : List (PrometheusKey × PrometheusSample) :=
  c.samples.insertionSort fun a b => keyLess a.1 b.1

/-- A counter family's lines, over the samples in order. -/
def counterLines (sorted : List (PrometheusKey × PrometheusSample)) (name help : String)
    (value : PrometheusSample → Float64) : List (List Char) :=
  headerLines name help "counter" ++ sorted.map fun ks => keyLine name ks.1 (formatF (value ks.2))

/-- The lines of the text writeMetricsLocked writes when no bucket is configured. -/
def writtenLines (c : PrometheusWorkGroupCollector) : List (List Char) :=
  headerLines "ecs_work_group_duration_seconds" "Work group execution duration." "summary" ++
    (sortedSamples c).flatMap (fun ks =>
      [keyLine "ecs_work_group_duration_seconds_sum" ks.1 (formatF ks.2.durationSum),
        keyLine "ecs_work_group_duration_seconds_count" ks.1 (formatF ks.2.durationCount)]) ++
  counterLines (sortedSamples c) "ecs_work_group_systems_executed_total"
    "Systems executed per work group." (·.executed) ++
  counterLines (sortedSamples c) "ecs_work_group_systems_skipped_total"
    "Systems skipped per work group." (·.skipped) ++
  counterLines (sortedSamples c) "ecs_work_group_errors_total" "Work group error count." (·.errors)

/-- The `work_group_id` a line carries, if it is a sample with one. -/
def lineID (l : List Char) : Option (List Char) :=
  (readSample l).bind fun s => s.labels.lookup "work_group_id".toList

theorem workGroupIDs_eq (text : String) :
    workGroupIDs text = (text.toList.splitOn '\n').filterMap lineID := rfl

theorem lineIDs_headerLines (name help type : String) :
    (headerLines name help type).filterMap lineID = [] := rfl

section Written

variable {c : PrometheusWorkGroupCollector} (hk : ∀ ks ∈ c.samples, KeyOk ks.1)
include hk

theorem keyOk_of_mem_sorted {ks : PrometheusKey × PrometheusSample} (h : ks ∈ sortedSamples c) :
    KeyOk ks.1 :=
  hk ks ((List.mem_insertionSort _).1 h)

theorem isLines_counter {name help : String} (hn : '\n' ∉ name.toList)
    (hh : ∀ l ∈ headerLines name help "counter", '\n' ∉ l) (value : PrometheusSample → Float64) :
    IsLines (familyHeader name help "counter" ++ String.join ((sortedSamples c).map fun ks =>
      sampleLine name (labels ks.1) (formatF (value ks.2))))
      (counterLines (sortedSamples c) name help value) := by
  refine (isLines_familyHeader hh).append ?_
  rw [List.map_eq_flatMap (fun ks => keyLine _ _ _)]
  exact IsLines.join_map fun ks h => isLines_keyLine hn (keyOk_of_mem_sorted hk h) _

/-- **Without buckets, the text is the written lines**, each ended by a
newline. -/
theorem isLines_writeMetrics (hb : c.durationBuckets = []) :
    IsLines c.writeMetrics (writtenLines c) := by
  have hdur : ∀ ks ∈ sortedSamples c, IsLines (c.durationLines ks)
      [keyLine "ecs_work_group_duration_seconds_sum" ks.1 (formatF ks.2.durationSum),
        keyLine "ecs_work_group_duration_seconds_count" ks.1 (formatF ks.2.durationCount)] := by
    intro ks h
    rw [PrometheusWorkGroupCollector.durationLines, hb, List.zip_nil_right, List.map_nil,
      String.join, List.foldl_nil, String.append_empty]
    exact (isLines_keyLine (by decide) (keyOk_of_mem_sorted hk h) _).append
      (isLines_keyLine (by decide) (keyOk_of_mem_sorted hk h) _)
  exact ((((isLines_familyHeader (by decide)).append (IsLines.join_map hdur)).append
    (isLines_counter hk (by decide) (by decide) _)).append
    (isLines_counter hk (by decide) (by decide) _)).append
    (isLines_counter hk (by decide) (by decide) _)

theorem validLines_counterLines {name : String} (hn : IsName name.toList) (help : String)
    (value : PrometheusSample → Float64) (fam : Option (List Char × List Char))
    (rest : List (List Char)) :
    validLines fam (counterLines (sortedSamples c) name help value ++ rest) =
      validLines (some (name.toList, "counter".toList)) rest := by
  rw [counterLines, List.append_assoc, validLines_header hn.2, validLines_append]
  intro l hl ls
  obtain ⟨ks, hks, rfl⟩ := List.mem_map.1 hl
  exact validLines_keyLine hn (keyOk_of_mem_sorted hk hks) _ (fun _ _ => by simp [fitsType]) ls

/-- **The written lines are well-formed exposition**: each family's header
declares it, and each sample line reads and fits its family. -/
theorem validLines_writtenLines (rest : List (List Char)) :
    validLines none (writtenLines c ++ rest) =
      validLines (some ("ecs_work_group_errors_total".toList, "counter".toList)) rest := by
  simp only [writtenLines, List.append_assoc]
  rw [validLines_header (by decide), validLines_append, validLines_counterLines hk (by decide),
    validLines_counterLines hk (by decide), validLines_counterLines hk (by decide)]
  intro l hl ls
  obtain ⟨ks, hks, hl⟩ := List.mem_flatMap.1 hl
  have hok := keyOk_of_mem_sorted hk hks
  simp only [List.mem_cons, List.mem_singleton, List.not_mem_nil, or_false] at hl
  rcases hl with rfl | rfl <;> exact validLines_keyLine (by decide) hok _ (fun _ _ => by rfl) ls

/-- **Without buckets and with keys the format carries, the text is
well-formed exposition.** -/
theorem valid_writeMetrics (hb : c.durationBuckets = []) : valid c.writeMetrics = true := by
  rw [valid, (isLines_writeMetrics hk hb).splitOn, validLines_writtenLines hk]
  rfl

theorem lineID_keyLine {name : String} (hn : IsName name.toList) {ks : PrometheusKey × PrometheusSample} (h : ks ∈ sortedSamples c) (x : Float64) :
    lineID (keyLine name ks.1 (formatF x)) = some ks.1.workGroupID.toList := by
  have hok := keyOk_of_mem_sorted hk h
  rw [lineID, keyLine, readSample_line hn hok.1.1 hok.2.1]
  rfl

theorem lineIDs_counterLines (name : String) (hn : IsName name.toList) (help : String) (value : PrometheusSample → Float64) :
    (counterLines (sortedSamples c) name help value).filterMap lineID =
      (sortedSamples c).map (·.1.workGroupID.toList) := by
  rw [counterLines, List.filterMap_append, lineIDs_headerLines, List.nil_append,
    List.filterMap_map, ← List.filterMap_eq_map]
  exact List.filterMap_congr fun ks h => lineID_keyLine hk hn h _

/-- **Every sample line carries its key's id**: the ids read back are those of
the samples in the order they are written, twice in the summary family (its
sum and its count) and once in each counter. -/
theorem workGroupIDs_writeMetrics (hb : c.durationBuckets = []) :
    workGroupIDs c.writeMetrics =
      (sortedSamples c).flatMap (fun ks => [ks.1.workGroupID.toList, ks.1.workGroupID.toList]) ++
        (sortedSamples c).map (·.1.workGroupID.toList) ++
        (sortedSamples c).map (·.1.workGroupID.toList) ++
        (sortedSamples c).map (·.1.workGroupID.toList) := by
  rw [workGroupIDs_eq, (isLines_writeMetrics hk hb).splitOn]
  simp only [writtenLines, List.filterMap_append, lineIDs_headerLines, List.nil_append,
    List.filterMap_flatMap,
    lineIDs_counterLines hk "ecs_work_group_systems_executed_total" (by decide),
    lineIDs_counterLines hk "ecs_work_group_systems_skipped_total" (by decide),
    lineIDs_counterLines hk "ecs_work_group_errors_total" (by decide)]
  rw [show [[]].filterMap lineID = [] from rfl, List.append_nil]
  refine congrArg (· ++ _ ++ _ ++ _) (List.flatMap_congr fun ks h => ?_)
  rw [List.filterMap_cons_some (lineID_keyLine hk (by decide) h _),
    List.filterMap_cons_some (lineID_keyLine hk (by decide) h _)]
  rfl

end Written

/-! ### Runs of observations -/

/-- An observation keeps every key one the format carries, if its id is plain:
the key it adds has the id and a mode label. -/
theorem keyOk_observeWorkGroup {c : PrometheusWorkGroupCollector}
    (hk : ∀ ks ∈ c.samples, KeyOk ks.1) {summary : WorkGroupSummary}
    (hid : PlainID summary.workGroupID) :
    ∀ ks ∈ (c.observeWorkGroup summary).samples, KeyOk ks.1 := by
  intro ks h
  simp only [PrometheusWorkGroupCollector.observeWorkGroup, List.mem_append, List.mem_filter,
    List.mem_singleton] at h
  rcases h with ⟨h, -⟩ | rfl
  · exact hk ks h
  · exact ⟨hid, plainID_modeLabel _⟩

/-- Over a run of observations, the buckets stay as configured and every key
stays one the format carries, if every observed id is plain. -/
theorem observe_run : ∀ (summaries : List WorkGroupSummary) {c : PrometheusWorkGroupCollector},
    (∀ s ∈ summaries, PlainID s.workGroupID) → (∀ ks ∈ c.samples, KeyOk ks.1) →
    (summaries.foldl PrometheusWorkGroupCollector.observeWorkGroup c).durationBuckets =
        c.durationBuckets ∧
      ∀ ks ∈ (summaries.foldl PrometheusWorkGroupCollector.observeWorkGroup c).samples, KeyOk ks.1
  | [], _, _, hk => ⟨rfl, hk⟩
  | s :: summaries, _, h, hk =>
    observe_run summaries (fun s' hs' => h s' (List.mem_cons_of_mem s hs'))
      (keyOk_observeWorkGroup hk (h s (List.mem_cons_self s summaries)))

set_option exponentiation.threshold 1100 in
/-- **The text is not always well-formed exposition.**  An id with a double
quote gives lines that do not read; an id with a backslash followed by `n`
gives lines that read, with another id (a newline in its place); and a
configured bucket gives a `_bucket` line that reads, with the right id, in a
family declared a summary, and no `le="+Inf"` bucket. -/
theorem writeMetrics_breaks_exposition :
    valid ((newPrometheusWorkGroupCollector []).observeWorkGroup
      ⟨"a\"b", .synchronized, false, 5000000, 2, 0, none⟩).writeMetrics = false ∧
    (valid ((newPrometheusWorkGroupCollector []).observeWorkGroup
        ⟨"a\\n", .synchronized, false, 5000000, 2, 0, none⟩).writeMetrics = true ∧
      workGroupIDs ((newPrometheusWorkGroupCollector []).observeWorkGroup
        ⟨"a\\n", .synchronized, false, 5000000, 2, 0, none⟩).writeMetrics =
        List.replicate 5 ['a', '\n']) ∧
    (valid ((newPrometheusWorkGroupCollector [1000000000]).observeWorkGroup
        ⟨"wg", .synchronized, false, 5000000, 2, 0, none⟩).writeMetrics = false ∧
      workGroupIDs ((newPrometheusWorkGroupCollector [1000000000]).observeWorkGroup
        ⟨"wg", .synchronized, false, 5000000, 2, 0, none⟩).writeMetrics =
        List.replicate 6 "wg".toList ∧
      (((newPrometheusWorkGroupCollector [1000000000]).observeWorkGroup
        ⟨"wg", .synchronized, false, 5000000, 2, 0, none⟩).writeMetrics.toList.splitOn '\n').filterMap
        (fun l => (readSample l).bind (·.labels.lookup "le".toList)) = ["1.000000".toList]) := by
  decide

end Exposition

end Ecs
