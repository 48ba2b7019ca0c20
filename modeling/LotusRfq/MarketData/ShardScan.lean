import Mathlib.Algebra.Order.Floor.Div

/-!
# LotusRfq — the scan of the market catalog by shards

A `MarketOrderbookRecorder` lists a page of the catalog on each tick, starts at the page of its
shard, and skips the pages of the other shards. Behind the last page it goes on at offset zero,
whichever shard it is of.

* **`page_lone`** — a recorder that is alone lists the pages in turn;
* **`scan_covers_iff`** — the recorders together keep listing every market exactly when there is
  one of them, or one page.
-/

namespace LotusRfq.MarketData

open List

variable {M : Type}

/-! ## The source -/

structure MarketOrderbookRecorderConfig where
  marketBatchSize : ℕ
  shardCount : ℕ
  shardIndex : ℕ

structure MarketOrderbookRecorder where
  config : MarketOrderbookRecorderConfig
  marketOffset : ℕ

namespace MarketOrderbookRecorder

def shardCount (config : MarketOrderbookRecorderConfig) : ℕ :=
  if 0 < config.shardCount then config.shardCount else 1

def shardIndex (config : MarketOrderbookRecorderConfig) : ℕ :=
  config.shardIndex % shardCount config

def new (config : MarketOrderbookRecorderConfig) : MarketOrderbookRecorder :=
  ⟨config, config.marketBatchSize * shardIndex config⟩

def listMarkets (catalog : List M) (limit offset : ℕ) : List M :=
  (catalog.drop offset).take limit

/-- The page of the catalog that a tick lists, and the recorder after it. -/
def runOnce (catalog : List M) (recorder : MarketOrderbookRecorder) :
    List M × MarketOrderbookRecorder :=
  let batch := recorder.config.marketBatchSize
  let markets := listMarkets catalog batch recorder.marketOffset
  let (markets, offset) :=
    if markets.length = 0 ∧ 0 < recorder.marketOffset then (listMarkets catalog batch 0, 0)
    else (markets, recorder.marketOffset)
  (markets, { recorder with marketOffset :=
    if markets.length < batch then 0 else offset + batch * shardCount recorder.config })

def after (catalog : List M) (recorder : MarketOrderbookRecorder) : ℕ → MarketOrderbookRecorder
  | 0 => recorder
  | n + 1 => ((recorder.after catalog n).runOnce catalog).2

/-- What the `n`-th tick lists. -/
def page (catalog : List M) (recorder : MarketOrderbookRecorder) (n : ℕ) : List M :=
  ((recorder.after catalog n).runOnce catalog).1

end MarketOrderbookRecorder

open MarketOrderbookRecorder

def shard (batch shards index : ℕ) : MarketOrderbookRecorder :=
  .new ⟨batch, shards, index⟩

/-- After so many ticks of each recorder, the next ones list every market. -/
def ScanCovers (catalog : List M) (batch shards : ℕ) (ticks : ℕ → ℕ) : Prop :=
  ∀ market ∈ catalog, ∃ index < shards, ∃ n < 2 * (catalog.length ⌈/⌉ (batch * shards) + 1),
    market ∈ (shard batch shards index).page catalog (ticks index + n)

/-! ## Where a recorder is -/

section

variable {catalog : List M} {batch shards index n : ℕ}

theorem mem_listMarkets (hnodup : catalog.Nodup) {i limit offset : ℕ} (hi : i < catalog.length) :
    catalog[i] ∈ listMarkets catalog limit offset ↔ offset ≤ i ∧ i < offset + limit := by
  rw [listMarkets, mem_take_iff_getElem]
  constructor
  · rintro ⟨j, hj, heq⟩
    rw [getElem_drop, hnodup.getElem_inj_iff] at heq
    rw [length_drop] at hj
    omega
  · rintro ⟨hle, hlt⟩
    refine ⟨i - offset, by rw [length_drop]; omega, ?_⟩
    simp only [getElem_drop, Nat.add_sub_cancel' hle]

def pageStart (total offset : ℕ) : ℕ :=
  if total ≤ offset then 0 else offset

theorem runOnce_eq {recorder : MarketOrderbookRecorder}
    (hbatch : 0 < recorder.config.marketBatchSize) : recorder.runOnce catalog =
      (listMarkets catalog recorder.config.marketBatchSize
        (pageStart catalog.length recorder.marketOffset),
      { recorder with marketOffset :=
        if catalog.length < pageStart catalog.length recorder.marketOffset +
            recorder.config.marketBatchSize then 0
        else pageStart catalog.length recorder.marketOffset +
          recorder.config.marketBatchSize * shardCount recorder.config }) := by
  unfold runOnce pageStart listMarkets
  simp only [length_take, length_drop]
  by_cases hbehind : catalog.length ≤ recorder.marketOffset
  · by_cases hzero : recorder.marketOffset = 0
    · have hnil : catalog.length = 0 := by omega
      simp [hzero, hnil, hbatch]
    · have hfirst : min recorder.config.marketBatchSize (catalog.length - recorder.marketOffset) = 0 ∧
          0 < recorder.marketOffset := by omega
      simp only [hfirst, hbehind, and_self, if_true, length_take, length_drop]
      congr 3
      grind
  · have hfull : ¬ (min recorder.config.marketBatchSize
        (catalog.length - recorder.marketOffset) = 0 ∧ 0 < recorder.marketOffset) := by omega
    simp only [hfull, hbehind, if_false, length_take, length_drop]
    congr 3
    grind

theorem after_config (recorder : MarketOrderbookRecorder) (n : ℕ) :
    (recorder.after catalog n).config = recorder.config := by
  induction n with
  | zero => rfl
  | succ n ih => exact ih

/-- Where the page of the `n`-th tick begins. -/
def startAt (catalog : List M) (batch shards index n : ℕ) : ℕ :=
  pageStart catalog.length ((shard batch shards index).after catalog n).marketOffset

theorem page_eq (hbatch : 0 < batch) : (shard batch shards index).page catalog n =
      listMarkets catalog batch (startAt catalog batch shards index n) := by
  have hconfig := @after_config _ catalog (shard batch shards index) n
  have hsize : ((shard batch shards index).after catalog n).config.marketBatchSize = batch := by
    rw [hconfig]; rfl
  rw [page, runOnce_eq (hsize.symm ▸ hbatch), hsize, startAt]

/-- **One tick.** The next page is that of the shards' stride, or the first one. -/
theorem startAt_succ (hbatch : 0 < batch) (hshards : 0 < shards) :
    startAt catalog batch shards index (n + 1) =
      if startAt catalog batch shards index n + batch * shards < catalog.length then
        startAt catalog batch shards index n + batch * shards
      else 0 := by
  have hconfig := @after_config _ catalog (shard batch shards index) n
  have hsize : ((shard batch shards index).after catalog n).config.marketBatchSize = batch := by
    rw [hconfig]; rfl
  have hcount : shardCount ((shard batch shards index).after catalog n).config = shards := by
    rw [hconfig]; exact if_pos hshards
  have hstride : batch ≤ batch * shards := Nat.le_mul_of_pos_right batch hshards
  rw [startAt, MarketOrderbookRecorder.after, runOnce_eq (hsize.symm ▸ hbatch), hsize, hcount,
    ← startAt]
  simp only [pageStart]
  grind

theorem startAt_lt (htotal : 0 < catalog.length) :
    startAt catalog batch shards index n < catalog.length := by
  unfold startAt pageStart
  split <;> omega

/-! ## What is listed for ever -/

theorem startAt_first (hbatch : 0 < batch) (hshards : 0 < shards) (htotal : 0 < catalog.length)
    (h : shards = 1 ∨ catalog.length ≤ batch) :
    startAt catalog batch shards 0 n = batch * (n % (catalog.length ⌈/⌉ batch)) := by
  induction n with
  | zero => simp [startAt, MarketOrderbookRecorder.after, shard, MarketOrderbookRecorder.new, shardIndex, pageStart]
  | succ n ih =>
    have hceil (c : ℕ) : catalog.length ⌈/⌉ batch ≤ c ↔ catalog.length ≤ batch * c :=
      ceilDiv_le_iff_le_mul hbatch
    have hpages : 0 < catalog.length ⌈/⌉ batch := by
      rw [Nat.pos_iff_ne_zero]
      intro hzero
      have := (hceil 0).mp hzero.le
      omega
    have hmod := Nat.mod_lt n hpages
    have hstride : catalog.length ≤ batch * (n % (catalog.length ⌈/⌉ batch)) + batch * shards ↔
        catalog.length ⌈/⌉ batch ≤ n % (catalog.length ⌈/⌉ batch) + 1 := by
      rcases h with rfl | hone
      · rw [hceil, mul_one, Nat.mul_succ]
      · have hstride : batch ≤ batch * shards := Nat.le_mul_of_pos_right batch hshards
        have := (hceil 1).mpr (by omega)
        omega
    rw [startAt_succ hbatch hshards, ih, ← Nat.mod_add_mod]
    by_cases hnext : n % (catalog.length ⌈/⌉ batch) + 1 < catalog.length ⌈/⌉ batch
    · obtain rfl : shards = 1 := by
        rcases h with hone | hone
        · exact hone
        · have := (hceil 1).mpr (by omega)
          omega
      rw [if_pos (not_le.mp (hstride.not.mpr hnext.not_ge)), Nat.mod_eq_of_lt hnext, mul_one,
        Nat.mul_succ]
    · have hlast : n % (catalog.length ⌈/⌉ batch) + 1 = catalog.length ⌈/⌉ batch := by omega
      rw [if_neg (not_lt.mpr (hstride.mpr hlast.ge)), hlast, Nat.mod_self, mul_zero]

theorem exists_startAt_eq_zero (hbatch : 0 < batch) (hshards : 0 < shards)
    (htotal : 0 < catalog.length) : ∃ n, startAt catalog batch shards index n = 0 := by
  by_contra hnever
  push Not at hnever
  have hstride : 0 < batch * shards := Nat.mul_pos hbatch hshards
  have hgrows (n : ℕ) : n ≤ startAt catalog batch shards index n := by
    induction n with
    | zero => exact Nat.zero_le _
    | succ n ih =>
      have hnext := hnever (n + 1)
      rw [startAt_succ hbatch hshards] at hnext ⊢
      split at hnext
      next hlt =>
        rw [if_pos hlt]
        omega
      next => exact absurd rfl hnext
  exact absurd (startAt_lt htotal) (hgrows catalog.length).not_gt

theorem dvd_startAt (hbatch : 0 < batch) (hshards : 0 < shards)
    (h : startAt catalog batch shards index n = 0) (k : ℕ) :
    batch * shards ∣ startAt catalog batch shards index (n + k) := by
  induction k with
  | zero => exact ⟨0, h⟩
  | succ k ih =>
    rw [← add_assoc, startAt_succ hbatch hshards]
    split
    · exact Nat.dvd_add ih (Nat.dvd_refl _)
    · exact ⟨0, rfl⟩

end

/-- **When the scan covers the catalog.** Whatever the recorders have done, their next ticks list
every market, exactly when there is one recorder, or the catalog fits on one page. -/
theorem scan_covers_iff {catalog : List M} {batch shards : ℕ} (hnodup : catalog.Nodup)
    (hbatch : 0 < batch) (hshards : 0 < shards) :
    (∀ ticks, ScanCovers catalog batch shards ticks) ↔ shards = 1 ∨ catalog.length ≤ batch := by
  constructor
  · intro hcovers
    by_contra! h
    have htotal : 0 < catalog.length := by omega
    choose ticks hticks using fun index =>
      @exists_startAt_eq_zero _ catalog batch shards index hbatch hshards htotal
    -- the second page is no longer listed by anybody
    obtain ⟨index, -, n, -, hmem⟩ := hcovers ticks catalog[batch] (getElem_mem h.2)
    rw [page_eq hbatch, mem_listMarkets hnodup h.2] at hmem
    obtain ⟨c, hc⟩ := dvd_startAt hbatch hshards (hticks index) n
    have htwo : 2 ≤ shards := by omega
    rw [hc] at hmem
    rcases Nat.eq_zero_or_pos c with rfl | hpos
    · omega
    · have : batch * 2 ≤ batch * shards * c :=
        (Nat.mul_le_mul_left batch htwo).trans (Nat.le_mul_of_pos_right _ hpos)
      omega
  · intro h ticks market hmem
    obtain ⟨i, hi, rfl⟩ := getElem_of_mem hmem
    have htotal : 0 < catalog.length := by omega
    have hceil (c : ℕ) : catalog.length ⌈/⌉ batch ≤ c ↔ catalog.length ≤ batch * c :=
      ceilDiv_le_iff_le_mul hbatch
    -- the page of the market, and the tick that lists it
    set pages := catalog.length ⌈/⌉ batch
    have hpage : i / batch < pages := by
      by_contra hbeyond
      have := (hceil (i / batch)).mp (not_lt.mp hbeyond)
      have := Nat.mul_div_le i batch
      omega
    have hwindow : pages ≤ 2 * (catalog.length ⌈/⌉ (batch * shards) + 1) := by
      rcases h with rfl | hone
      · rw [mul_one]
        omega
      · have := (hceil 1).mpr (by omega)
        omega
    have hticks := Nat.mod_lt (ticks 0) (Nat.zero_lt_of_lt hpage)
    refine ⟨0, hshards, (i / batch + (pages - ticks 0 % pages)) % pages,
      (Nat.mod_lt _ (Nat.zero_lt_of_lt hpage)).trans_le hwindow, ?_⟩
    have hlisted : (ticks 0 + (i / batch + (pages - ticks 0 % pages)) % pages) % pages =
        i / batch := by
      rw [Nat.add_mod_mod, ← Nat.mod_add_mod, show ticks 0 % pages +
        (i / batch + (pages - ticks 0 % pages)) = i / batch + pages by omega,
        Nat.add_mod_right, Nat.mod_eq_of_lt hpage]
    rw [page_eq hbatch, mem_listMarkets hnodup hi, startAt_first hbatch hshards htotal h, hlisted]
    have := Nat.div_add_mod i batch
    have := Nat.mod_lt i hbatch
    omega

/-! ## Two shards -/

theorem lone_scan_covers : ScanCovers [0, 1, 2] 1 1 fun _ => 4 :=
  (scan_covers_iff (by decide) (by decide) (by decide)).mpr (.inl rfl) _

/-- Once the second shard has come to the end of the catalog, it lists what the first one lists. -/
theorem shards_miss_page : ¬ ∀ (catalog : List ℕ) (batch shards : ℕ) (ticks : ℕ → ℕ),
    catalog.Nodup → 0 < batch → 0 < shards → ScanCovers catalog batch shards ticks := by
  intro h
  obtain ⟨index, hindex, n, hn, hmem⟩ :=
    h [0, 1] 1 2 (fun _ => 1) (by decide) (by decide) (by decide) 1 (by decide)
  revert hmem
  revert index n
  decide

end LotusRfq.MarketData
