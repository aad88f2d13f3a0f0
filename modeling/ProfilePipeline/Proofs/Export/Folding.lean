import Mathlib.Data.List.Basic
import Mathlib.Tactic.Common
import ProfilePipeline.Proofs.Export.Sending

/-!
# What an exporter of lines writes

Whatever is asked of an exporter of lines, one thing after the other, its consumer gets the lines of
each batch up to the first shutdown and nothing after that.

**Counting.**  `Tallied` says what the counts of a list of lines are: each line once, in the order
of first occurrence, with the number of its occurrences.  `Tallied.addLine` is one line more,
`tallied_tally` a whole list.

**Reading a summary.**  A line may itself end in a space and digits.  The number is still what
follows the last space (`splitCount?_countedLine`), so a summary can be taken apart, and what it
stands for are the lines it was made of up to their order (`spread_tally_perm`).  `Summary` puts
this together.

**Runs.**  One lemma says what each call does while the exporter is in service and one what it does
afterwards; **`State.callEach_writes`** is the result for sequences of calls.
-/

namespace ProfilePipeline.Export

/-! ## Counting -/

/-- **The counts of the lines of a list.** -/
structure Tallied (plain : List String) (counts : List (String × Nat)) : Prop where
  distinct : (counts.map Prod.fst).Nodup
  mem : ∀ l, l ∈ counts.map Prod.fst ↔ l ∈ plain
  ordered : (counts.map Prod.fst).Pairwise fun k l => plain.idxOf k < plain.idxOf l
  count : ∀ entry ∈ counts, entry.2 = plain.count entry.1

variable {plain lines : List String} {counts : List (String × Nat)} {l : String}

lemma addLine_of_not_mem (h : l ∉ counts.map Prod.fst) :
    addLine counts l = counts ++ [(l, 1)] := by
  induction counts with
  | nil => rfl
  | cons entry counts ih =>
      rw [List.map_cons, List.mem_cons, not_or] at h
      rw [addLine, if_neg fun e => h.1 e.symm, ih h.2, List.cons_append]

/-- A line that was counted before is counted once more where it stands. -/
lemma addLine_of_mem (hdistinct : (counts.map Prod.fst).Nodup) (h : l ∈ counts.map Prod.fst) :
    addLine counts l =
      counts.map fun entry => (entry.1, if entry.1 = l then entry.2 + 1 else entry.2) := by
  induction counts with
  | nil => exact absurd h (by simp)
  | cons entry counts ih =>
      rw [List.map_cons, List.nodup_cons] at hdistinct
      by_cases heq : entry.1 = l
      · have hothers : ∀ other ∈ counts, other.1 ≠ l := by
          rintro other hmem rfl
          exact hdistinct.1 (heq ▸ List.mem_map_of_mem hmem)
        have hsame : (counts.map fun other =>
            (other.1, if other.1 = l then other.2 + 1 else other.2)) = counts := by
          refine (List.map_congr_left fun other hmem => ?_).trans (List.map_id counts)
          rw [if_neg (hothers other hmem)]
          rfl
        rw [addLine, if_pos heq, List.map_cons, hsame, if_pos heq]
      · rw [List.map_cons, List.mem_cons] at h
        have hlater := h.resolve_left fun e => heq e.symm
        rw [addLine, if_neg heq, ih hdistinct.2 hlater, List.map_cons, if_neg heq]

/-- **One line more**, whether it is a new one or not. -/
theorem Tallied.addLine (h : Tallied plain counts) (l : String) :
    Tallied (plain ++ [l]) (addLine counts l) := by
  have hidx : ∀ k ∈ counts.map Prod.fst, (plain ++ [l]).idxOf k = plain.idxOf k :=
    fun k hk => List.idxOf_append_of_mem ((h.mem k).mp hk)
  have hordered : (counts.map Prod.fst).Pairwise fun j k =>
      (plain ++ [l]).idxOf j < (plain ++ [l]).idxOf k := by
    refine h.ordered.imp_of_mem ?_
    intro j k hj hk hlt
    rwa [hidx j hj, hidx k hk]
  by_cases hl : l ∈ counts.map Prod.fst
  · have hkeys : (Export.addLine counts l).map Prod.fst = counts.map Prod.fst := by
      rw [addLine_of_mem h.distinct hl, List.map_map]
      rfl
    refine ⟨hkeys ▸ h.distinct, ?_, hkeys ▸ hordered, ?_⟩
    · intro k
      have hplain : l ∈ plain := (h.mem l).mp hl
      rw [hkeys, h.mem, List.mem_append, List.mem_singleton]
      exact ⟨.inl, fun hk => hk.elim id fun e => e ▸ hplain⟩
    · intro entry hentry
      rw [addLine_of_mem h.distinct hl] at hentry
      obtain ⟨old, hold, rfl⟩ := List.mem_map.mp hentry
      have hcount := h.count old hold
      rw [List.count_append, List.count_singleton, ← hcount]
      by_cases heq : old.1 = l
      · simp [heq]
      · have heq' : ¬ l = old.1 := fun e => heq e.symm
        simp [heq, heq']
  · have hplain : l ∉ plain := fun hmem => hl ((h.mem l).mpr hmem)
    have hlast : (plain ++ [l]).idxOf l = plain.length := by
      simp [List.idxOf_append, hplain]
    rw [addLine_of_not_mem hl]
    refine ⟨?_, ?_, ?_, ?_⟩
    · rw [List.map_append, List.nodup_append]
      refine ⟨h.distinct, by simp, ?_⟩
      rintro k hk j hj rfl
      obtain rfl : k = l := by simpa using hj
      exact hl hk
    · intro k
      rw [List.map_append, List.mem_append, List.mem_append, h.mem]
      rfl
    · rw [List.map_append, List.pairwise_append]
      refine ⟨hordered, by simp, ?_⟩
      intro k hk j hj
      obtain rfl : j = l := by simpa using hj
      rw [hlast, hidx k hk]
      exact List.idxOf_lt_length_of_mem ((h.mem k).mp hk)
    · intro entry hentry
      rcases List.mem_append.mp hentry with hold | hnew
      · have hne : ¬ l = entry.1 := fun e => hl (e ▸ List.mem_map_of_mem hold)
        simp [List.count_append, hne, h.count entry hold]
      · obtain rfl : entry = (l, 1) := by simpa using hnew
        simp [List.count_append, List.count_eq_zero_of_not_mem hplain]

/-- Lines that are counted one after the other. -/
lemma Tallied.foldl (h : Tallied plain counts) (lines : List String) :
    Tallied (plain ++ lines) (lines.foldl Export.addLine counts) := by
  induction lines generalizing plain counts with
  | nil => simpa using h
  | cons l lines ih =>
      have hrest := ih (h.addLine l)
      rwa [List.append_assoc, List.singleton_append] at hrest

/-- **The tally of a list has the counts of its lines.** -/
theorem tallied_tally (lines : List String) : Tallied lines (tally lines) := by
  have hempty : Tallied [] [] := ⟨by simp, by simp, by simp, by simp⟩
  exact hempty.foldl lines

/-! ## What counts stand for -/

/-- As many of each line as were counted. -/
def spread (counts : List (String × Nat)) : List String :=
  counts.flatMap fun entry => List.replicate entry.2 entry.1

lemma spread_addLine_perm (counts : List (String × Nat)) (l : String) :
    (spread (addLine counts l)).Perm (spread counts ++ [l]) := by
  induction counts with
  | nil => exact .refl _
  | cons entry counts ih =>
      by_cases heq : entry.1 = l
      · subst heq
        have hmove : (entry.1 :: spread counts).Perm (spread counts ++ [entry.1]) :=
          (List.perm_append_singleton entry.1 (spread counts)).symm
        rw [addLine, if_pos rfl]
        simp only [spread, List.flatMap_cons, List.replicate_succ', List.append_assoc,
          List.singleton_append] at hmove ⊢
        exact hmove.append_left _
      · rw [addLine, if_neg heq]
        simp only [spread, List.flatMap_cons, List.append_assoc] at ih ⊢
        exact ih.append_left _

/-- **Counts stand for the lines that were counted**, up to their order. -/
theorem spread_tally_perm (lines : List String) : (spread (tally lines)).Perm lines := by
  have hrun : ∀ counts, (spread (lines.foldl addLine counts)).Perm (spread counts ++ lines) := by
    induction lines with
    | nil => simp
    | cons l lines ih =>
        intro counts
        have hstep := (ih (addLine counts l)).trans
          ((spread_addLine_perm counts l).append_right lines)
        rwa [List.append_assoc, List.singleton_append] at hstep
  exact hrun []

lemma length_spread (counts : List (String × Nat)) :
    (spread counts).length = (counts.map Prod.snd).sum := by
  simp [spread, List.length_flatMap]

/-! ## Reading a summary -/

/-- **Takes a line and the number behind it apart**: what follows the last space are the digits of
the number. -/
def splitCount? (text : String) : Option (String × Nat) :=
  let backwards := text.toList.reverse
  let digits := (backwards.takeWhile (· ≠ ' ')).reverse
  match backwards.dropWhile (· ≠ ' ') with
  | [] => none
  | _ :: front =>
    if digits ≠ [] ∧ digits.all Char.isDigit then
      some (String.ofList front.reverse, Nat.ofDigitChars 10 digits 0)
    else none

lemma isDigit_of_mem_toDigits {n : Nat} {c : Char} (h : c ∈ Nat.toDigits 10 n) :
    c.isDigit = true := Nat.isDigit_of_mem_toDigits (by decide) (by decide) h

/-- **A line and its number can be told apart**, whatever the line ends in. -/
theorem splitCount?_countedLine (entry : String × Nat) :
    splitCount? (countedLine entry) = some entry := by
  obtain ⟨l, n⟩ := entry
  have hback : (countedLine (l, n)).toList.reverse =
      (Nat.toDigits 10 n).reverse ++ ' ' :: l.toList.reverse := by
    simp [countedLine, String.toList_append]
  -- no digit is a space, so the last space is the one in front of the number
  have hspace : ∀ c ∈ (Nat.toDigits 10 n).reverse, decide (c ≠ ' ') = true := by
    intro c hc
    have hdigit := isDigit_of_mem_toDigits (List.mem_reverse.mp hc)
    refine decide_eq_true ?_
    rintro rfl
    exact absurd hdigit (by decide)
  have hall : (Nat.toDigits 10 n).all Char.isDigit = true :=
    List.all_eq_true.mpr fun c hc => isDigit_of_mem_toDigits hc
  simp only [splitCount?, hback]
  rw [List.dropWhile_append_of_pos hspace, List.takeWhile_append_of_pos hspace]
  simp [hall, Nat.toDigits_ne_nil, Nat.ofDigitChars_ten_toDigits]

/-- **A summary of lines**, by the counts that are in it. -/
structure Summary (plain written : List String) (counts : List (String × Nat)) : Prop
    extends Tallied plain counts where
  /-- Each line is written once, followed by a space and its count. -/
  written_eq : written = counts.map fun entry => entry.1 ++ " " ++ toString entry.2
  positive : ∀ entry ∈ counts, 0 < entry.2
  total : (counts.map Prod.snd).sum = plain.length
  /-- Lines and counts can be read off what is written. -/
  told : written.map splitCount? = counts.map some
  /-- What is read stands for the lines, up to their order. -/
  recovered : (spread (written.filterMap splitCount?)).Perm plain

/-- **Lines that are folded are summarised.** -/
theorem summary_tally (plain : List String) :
    Summary plain ((tally plain).map countedLine) (tally plain) := by
  have htallied := tallied_tally plain
  have hperm := spread_tally_perm plain
  have htold : ((tally plain).map countedLine).map splitCount? = (tally plain).map some := by
    rw [List.map_map]
    exact List.map_congr_left fun entry _ => splitCount?_countedLine entry
  refine ⟨htallied, rfl, ?_, ?_, htold, ?_⟩
  · intro entry hmem
    rw [htallied.count entry hmem]
    exact List.count_pos_iff.mpr ((htallied.mem entry.1).mp (List.mem_map_of_mem hmem))
  · rw [← length_spread, hperm.length_eq]
  · have hread : ((tally plain).map countedLine).filterMap splitCount? = tally plain := by
      rw [List.filterMap_map]
      refine (List.filterMap_congr ?_).trans List.filterMap_some
      intro entry _
      exact splitCount?_countedLine entry
    rwa [hread]

/-! ## Calls -/

/-- What a call writes after the calls `before`: an exporter that was shut down writes nothing. -/
def Call.written (e : LineExporter) (before : List Call) : Call → List String
  | accept records => if before.any isShutdown then [] else e.lines records
  | flush | shutdown => []

/-- How a call ends after the calls `before`: a batch that comes too late fails. -/
def Call.verdict (before : List Call) : Call → Outcome
  | accept _ => if before.any isShutdown then .fail else .ok
  | flush | shutdown => .ok

/-- What the outside sees of lines, if anybody is given them. -/
def shown (consumer : Option String) (lines : List String) : List Event :=
  match consumer with
  | some name => lines.map fun text => ⟨name, .line text⟩
  | none => []

lemma shown_append (consumer : Option String) (lines more : List String) :
    shown consumer (lines ++ more) = shown consumer lines ++ shown consumer more := by
  cases consumer <;> simp [shown]

namespace State

open Completion (Token)

variable {κ : Type} {s : State κ} {slot : Nat} {fold : Bool} {consumer : Option String}

/-- The consumer is given the lines in order. -/
lemma events_write (s : State κ) (consumer : Option String) (lines : List String) :
    (s.write consumer lines).events.toList = s.events.toList ++ shown consumer lines := by
  cases consumer with
  | none => simp [write, shown]
  | some name =>
      simp only [write, shown]
      induction lines generalizing s with
      | nil => simp
      | cons text lines ih =>
          rw [List.foldl_cons, ih (s.note name (.line text))]
          simp [note]

/-- **A batch is written** by an exporter in service. -/
lemma deals_accept_lines (found : s.devices[slot]? = some (.lines ⟨fold, false⟩ consumer))
    (records : List Record) :
    s.Deals slot (.lines ⟨fold, false⟩ consumer)
      (shown consumer (LineExporter.lines ⟨fold, false⟩ records)) .ok
      (s.call slot (.accept records)) := by
  rw [call, found]
  have hwritten := events_write s consumer (LineExporter.lines ⟨fold, false⟩ records)
  obtain ⟨events, hwrite⟩ := s.write_eq consumer (LineExporter.lines ⟨fold, false⟩ records)
  simp only [LineExporter.accept?, Bool.false_eq_true, ↓reduceIte]
  rw [hwrite] at hwritten ⊢
  exact ⟨(answered_settle true).frame rfl rfl rfl rfl, found, hwritten, ending_settle true⟩

lemma deals_flush_lines {e : LineExporter} (found : s.devices[slot]? = some (.lines e consumer)) :
    s.Deals slot (.lines e consumer) [] .ok (s.call slot .flush) := by
  rw [call, found]
  exact deals_settle rfl rfl rfl found true

lemma deals_shutdown_lines (found : s.devices[slot]? = some (.lines ⟨fold, false⟩ consumer)) :
    s.Deals slot (.lines ⟨fold, true⟩ consumer) [] .ok (s.call slot .shutdown) := by
  rw [call, found]
  have hput := devices_put found rfl (.lines ⟨fold, true⟩ consumer)
  refine deals_settle ?_ ?_ ?_ hput true
  all_goals rfl

/-- An exporter that was shut down writes nothing, and fails to export. -/
lemma deals_down_lines (found : s.devices[slot]? = some (.lines ⟨fold, true⟩ consumer)) (c : Call) :
    s.Deals slot (.lines ⟨fold, true⟩ consumer) [] (c.verdict [.shutdown]) (s.call slot c) := by
  cases c with
  | accept records =>
      rw [call, found]
      exact deals_settle rfl rfl rfl found false
  | flush => exact deals_flush_lines found
  | shutdown =>
      rw [call, found]
      have hput := devices_put found rfl (.lines ⟨fold, true⟩ consumer)
      refine deals_settle ?_ ?_ ?_ hput true
      all_goals rfl

/-! ## Runs -/

lemma verdict_ne_defer (before : List Call) (c : Call) : c.verdict before ≠ .defer := by
  cases c with
  | accept records =>
      rw [Call.verdict]
      split <;> decide
  | flush | shutdown => nofun

lemma dealt_down_lines (found : s.devices[slot]? = some (.lines ⟨fold, true⟩ consumer))
    (calls : List Call) :
    s.Dealt slot [] (fun before c => c.verdict (.shutdown :: before)) calls := by
  induction calls generalizing s with
  | nil => exact dealt_nil _
  | cons c calls ih =>
      have deals := deals_down_lines found c
      refine .cons rfl deals (ih deals.device) (verdict_ne_defer _ c) rfl ?_
      intro before d
      cases d <;> rfl

/-- **What an exporter of lines does that is in service**: the lines of each batch before the first
shutdown, in their order. -/
theorem dealt_up_lines (found : s.devices[slot]? = some (.lines ⟨fold, false⟩ consumer))
    (calls : List Call) :
    s.Dealt slot (shown consumer ((served calls).flatMap (LineExporter.lines ⟨fold, false⟩)))
      (fun before c => c.verdict before) calls := by
  induction calls generalizing s with
  | nil =>
      have hnone : shown consumer [] = [] := by cases consumer <;> rfl
      rw [served, List.flatMap_nil, hnone]
      exact dealt_nil _
  | cons c calls ih =>
      cases c with
      | accept records =>
          have deals := deals_accept_lines found records
          refine .cons ?_ deals (ih deals.device) (by decide) rfl ?_
          · rw [served, List.flatMap_cons, shown_append]
          · intro before d
            cases d <;> rfl
      | flush =>
          have deals := deals_flush_lines found
          refine .cons rfl deals (ih deals.device) (by decide) rfl ?_
          intro before d
          cases d <;> rfl
      | shutdown =>
          have deals := deals_shutdown_lines found
          have hnone : shown consumer [] = [] := by cases consumer <;> rfl
          refine .cons ?_ deals (dealt_down_lines deals.device calls) (by decide) rfl fun _ _ => rfl
          rw [served, List.flatMap_nil, hnone]
          rfl

/-- A call behind others serves a batch if it is one and none of them shuts down. -/
lemma flatMap_served_concat (e : LineExporter) (before : List Call) (c : Call) :
    (served (before ++ [c])).flatMap e.lines =
      (served before).flatMap e.lines ++ c.written e before := by
  induction before with
  | nil => cases c <;> simp [served, Call.written]
  | cons d before ih =>
      have hflush : c.written e (.flush :: before) = c.written e before := by cases c <;> rfl
      have haccept : ∀ records, c.written e (.accept records :: before) = c.written e before := by
        intro records
        cases c <;> rfl
      cases d with
      | accept records =>
          rw [List.cons_append, served, served, List.flatMap_cons, List.flatMap_cons, ih,
            haccept records, List.append_assoc]
      | flush => rw [List.cons_append, served, served, ih, hflush]
      | shutdown => cases c <;> simp [served, Call.written, Call.isShutdown]

/-- What an exporter of lines does that is in service at first. -/
structure Writes (s : State κ) (slot : Nat) (fold : Bool) (consumer : Option String)
    (calls : List Call) : Prop where
  /-- The consumer is given the lines of each batch before the first shutdown. -/
  all : (s.callEach slot calls).1.events.toList = s.events.toList ++
    shown consumer ((served calls).flatMap (LineExporter.lines ⟨fold, false⟩))
  /-- Each call gives it its own lines and no others, whatever was asked for before. -/
  each : ∀ before c after, calls = before ++ c :: after →
    (s.callEach slot (before ++ [c])).1.events.toList =
      (s.callEach slot before).1.events.toList ++
        shown consumer (c.written ⟨fold, false⟩ before)
  /-- Every call ends: a batch after a shutdown fails, and all else succeeds. -/
  endings : ∀ (i : Nat) (c : Call), calls[i]? = some c →
    ∃ a, (s.callEach slot calls).2[i]? = some a ∧
      (s.callEach slot calls).1.ending a = c.verdict (calls.take i)
  /-- Without folding a batch is one line for each record, in order. -/
  plain : fold = false →
    ∀ records, LineExporter.lines ⟨fold, false⟩ records = records.map line
  /-- With folding it is a summary of these lines. -/
  folded : fold = true → ∀ records, ∃ counts,
    Summary (records.map line) (LineExporter.lines ⟨fold, false⟩ records) counts

/-- **An exporter of lines writes what it is given until it is shut down**, one line for each record
or a summary of these lines for each batch. -/
theorem callEach_writes (found : s.devices[slot]? = some (.lines ⟨fold, false⟩ consumer))
    (calls : List Call) : s.Writes slot fold consumer calls where
  all := (dealt_up_lines found calls).events
  each before c after _ := by
    rw [(dealt_up_lines found (before ++ [c])).events, (dealt_up_lines found before).events,
      flatMap_served_concat, shown_append, List.append_assoc]
  endings := (dealt_up_lines found calls).endings
  plain off records := by
    subst off
    rfl
  folded on records := by
    subst on
    exact ⟨tally (records.map line), summary_tally _⟩

/-- An exporter that folds, with a consumer named `c`. -/
def folding : State Nat where
  devices := #[.lines ⟨true, false⟩ (some "c")]

/-- A batch in which one line occurs twice, a shutdown, and a batch too late. -/
def foldedCalls : List Call :=
  [.accept [default, { scope := { name := "x 1" } }, default], .shutdown, .accept [default]]

/-- Two lines are written for three records, and the late batch is refused. -/
theorem callEach_writes_folding :
    folding.devices[0]? = some (.lines ⟨true, false⟩ (some "c")) ∧
      (folding.callEach 0 foldedCalls).1.events.size = 2 ∧
      folding.Writes 0 true (some "c") foldedCalls := by
  have found : folding.devices[0]? = some (.lines ⟨true, false⟩ (some "c")) := rfl
  exact ⟨found, by decide +kernel, callEach_writes found foldedCalls⟩

end State

end ProfilePipeline.Export
