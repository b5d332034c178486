import CpuSteward.Proofs.Event
import CpuSteward.Proofs.Readback
import Mathlib.Algebra.BigOperators.Intervals
import Mathlib.Algebra.Order.BigOperators.Group.Finset

/-!
# The blocks of a report

The blocks of a report with one line per CPU show the load of a CPU in three places, and the
totals show their sum in two.  All of this is read off the text: a line is found by its name,
and the numbers behind the name are the longest runs of digits.  What is left of a line when
its numbers are taken out is the same in every report.

The blocks end at the CPU with the number 7, or 9 in one of them, while the totals go over
all CPUs that are online.  So the loads that are shown add up to the total exactly if nothing
runs on a CPU further up.

## Main definitions

* `Report.figures`, `Report.figures?` — the numbers in a text, and on the line with a name.
* `Report.unnumbered` — a line without its numbers.
* `Kernel.shown` — the load that is shown of a CPU.

## Main results

* `Report.figures?_of_mem` — a line of a report shows the numbers behind its name.
* `Report.unnumbered_render` — the lines without their numbers are the same in every report.
* `Kernel.runnable_eq_sum` — the total as a sum of loads that are shown.
* `Report.blocks_agree` — **the blocks of a report agree with each other.**
-/

namespace CpuSteward

namespace Kernel

variable {k : Kernel}

/-- The load that is shown of a CPU: none if it is offline. -/
def shown (k : Kernel) (c : Nat) : Nat := if c ∈ k.online then (k.load c).running.toNat else 0

theorem toNat_running_cpu (k : Kernel) (c : Nat) :
    ((LoadSample.collect k).cpu c).running.toNat = k.shown c := by
  rw [LoadSample.cpu_collect, shown]
  split <;> rfl

/-- The total is the sum over all CPUs of the loads that are shown. -/
theorem runnable_eq_sum (k : Kernel) : k.runnable = ∑ i ∈ Finset.range maxCpus, k.shown i := by
  have key : ∀ n, (((List.range n).filter k.online.contains).map fun c =>
      (k.load c).running.toNat).sum = ∑ i ∈ Finset.range n, k.shown i := by
    intro n
    induction n with
    | zero => rfl
    | succ n ih =>
      rw [List.range_succ, List.filter_append, List.map_append, List.sum_append, ih,
        Finset.sum_range_succ]
      by_cases hn : n ∈ k.online
      · simp [shown, hn]
      · simp [shown, hn]
  rw [runnable, ← key, List.sum_eq_foldr, List.foldr_map]
  rfl

/-- The loads of the first CPUs are part of the total, and all of it if the others have none. -/
theorem sum_shown_le {n : Nat} (hn : n ≤ maxCpus) :
    ∑ i ∈ Finset.range n, k.shown i ≤ k.runnable ∧
      (∑ i ∈ Finset.range n, k.shown i = k.runnable ↔
        ∀ c ∈ k.online, n ≤ c → (k.load c).running = 0) := by
  have hsplit := Finset.sum_range_add_sum_Ico k.shown hn
  rw [← runnable_eq_sum] at hsplit
  refine ⟨by omega, ?_⟩
  have hrest : ∑ i ∈ Finset.Ico n maxCpus, k.shown i = 0 ↔
      ∀ c ∈ k.online, n ≤ c → (k.load c).running = 0 := by
    rw [Finset.sum_eq_zero_iff]
    constructor
    · intro h c hc hle
      have hzero := h c (Finset.mem_Ico.2 ⟨hle, CpuMask.lt_of_mem hc⟩)
      rw [shown, if_pos hc] at hzero
      exact UInt64.toNat_inj.1 hzero
    · intro h c hc
      unfold shown
      split
      · rename_i honline
        rw [h c honline (Finset.mem_Ico.1 hc).1, UInt64.toNat_zero]
      · rfl
  rw [← hrest]
  omega

end Kernel

namespace Report

variable {c : Controller} {k : Kernel} {l : Line} {name : String} {rest : List Char}

/-! ### The numbers of a text -/

/-- A character of a number: a digit or the sign. -/
def isFigure (ch : Char) : Bool := ch == '-' || ch.isDigit

/-- The numbers in a text: its longest runs of digits and signs. -/
def figures (text : List Char) : List String :=
  ((text.splitOnP fun ch => !isFigure ch).filter fun run => !run.isEmpty).map String.ofList

/-- The numbers behind the name of a line, if there is one line with this name and no other. -/
def figures? (text name : String) : Option (List String) :=
  match (entries text).filter fun e => e.1 == name with
  | [e] => some (figures e.2.toList)
  | _ => none

/-- A line without its numbers. -/
def unnumbered (line : String) : String :=
  String.ofList (line.toList.filter fun ch => !isFigure ch)

theorem not_isFigure_of_mem_ofInt {z : Int} :
    ∀ ch ∈ (Decimal.ofInt z).toList, (!isFigure ch) = false := fun ch hch =>
  IntLiteral.forall_mem_of_all (p := fun ch => (!isFigure ch) = false) (by decide) ch
    (IntLiteral.mem_of_mem_ofInt ch hch)

theorem ofInt_toNat (w : UInt64) : Decimal.ofInt w.toNat = Decimal.ofWord w := by
  rw [Decimal.ofInt, if_pos (Int.natCast_nonneg _), Int.toNat_natCast, Decimal.ofWord]

theorem not_isFigure_of_mem_ofWord {w : UInt64} :
    ∀ ch ∈ (Decimal.ofWord w).toList, (!isFigure ch) = false := by
  rw [← ofInt_toNat]
  exact not_isFigure_of_mem_ofInt

theorem isEmpty_ofWord (w : UInt64) : (Decimal.ofWord w).toList.isEmpty = false := by
  rw [Decimal.ofWord, Decimal.ofNat, String.toList_ofList, List.isEmpty_eq_false_iff]
  exact Nat.toDigits_ne_nil

theorem figures_cons {ch : Char} (h : isFigure ch = false) (text : List Char) :
    figures (ch :: text) = figures text := by
  have hsplit := List.splitOnP_append_cons_of_forall_mem (List.forall_mem_nil _) ch
    (p := fun ch => !isFigure ch) (by rw [h, Bool.not_false]) text
  rw [List.nil_append] at hsplit
  rw [figures, hsplit]
  rfl

/-- A number at the end of a text. -/
theorem figures_ofWord (w : UInt64) : figures (Decimal.ofWord w).toList = [Decimal.ofWord w] := by
  rw [figures, List.splitOnP_eq_singleton not_isFigure_of_mem_ofWord,
    List.filter_cons_of_pos (by rw [isEmpty_ofWord, Bool.not_false]), List.filter_nil,
    List.map_singleton, String.ofList_toList]

/-- A number in front of a character of another kind. -/
theorem figures_ofWord_append (w : UInt64) {ch : Char} (h : isFigure ch = false)
    (text : List Char) :
    figures ((Decimal.ofWord w).toList ++ ch :: text) = Decimal.ofWord w :: figures text := by
  rw [figures, List.splitOnP_append_cons_of_forall_mem not_isFigure_of_mem_ofWord ch
      (by rw [h, Bool.not_false]) text,
    List.filter_cons_of_pos (by rw [isEmpty_ofWord, Bool.not_false]), List.map_cons,
    String.ofList_toList, figures]

/-! ### The numbers of a line -/

@[simp] theorem text_label (text : String) : (Piece.label text).text = text := rfl

@[simp] theorem text_word (w : UInt64) : (word w).text = Decimal.ofWord w := by
  rw [word, Piece.text, ofInt_toNat]

/-- A line of a report shows the numbers behind its name. -/
theorem figures?_of_mem (h : l ∈ lines c k) (hl : l.text.toList = name.toList ++ ':' :: rest)
    (hn : ':' ∉ name.toList) : figures? (render c k) name = some (figures rest) := by
  have hcut := cut_of_toList hl hn
  rw [String.ofList_toList] at hcut
  rw [figures?, filter_entries_of_mem h hcut]
  simp only [String.toList_ofList]

variable {v w : UInt64}

theorem figures?_single (h : [.label (name ++ ":"), word w] ∈ lines c k)
    (hn : ':' ∉ name.toList) : figures? (render c k) name = some [Decimal.ofWord w] := by
  have htext : (Line.text [.label (name ++ ":"), word w]).toList =
      name.toList ++ ':' :: (Decimal.ofWord w).toList := by
    simp [Line.text]
  rw [figures?_of_mem h htext hn, figures_ofWord]

theorem figures?_field (h : field name (word w) ∈ lines c k)
    (hn : ':' ∉ name.toList) : figures? (render c k) name = some [Decimal.ofWord w] := by
  have htext := Line.text_field name (word w)
  rw [text_word] at htext
  rw [figures?_of_mem h htext hn, figures_cons (by decide), figures_ofWord]

/-- What stands between two numbers on a line does not matter. -/
theorem figures_two (v w : UInt64) {ch : Char} {gap : List Char} (hch : isFigure ch = false)
    (hgap : gap.all (fun ch => !isFigure ch) = true) :
    figures ((Decimal.ofWord v).toList ++ ch :: (gap ++ (Decimal.ofWord w).toList)) =
      [Decimal.ofWord v, Decimal.ofWord w] := by
  have hrest : figures (gap ++ (Decimal.ofWord w).toList) = [Decimal.ofWord w] := by
    induction gap with
    | nil => exact figures_ofWord w
    | cons ch gap ih =>
      rw [List.all_cons, Bool.and_eq_true, Bool.not_eq_true'] at hgap
      obtain ⟨hhead, htail⟩ := hgap
      rw [List.cons_append, figures_cons hhead, ih htail]
  rw [figures_ofWord_append v hch, hrest]

theorem figures?_pair (h : pair name (word v) (word w) ∈ lines c k) (hn : ':' ∉ name.toList) :
    figures? (render c k) name = some [Decimal.ofWord v, Decimal.ofWord w] := by
  have htext : (Line.text (pair name (word v) (word w))).toList =
      name.toList ++ ':' :: ((Decimal.ofWord v).toList ++ ',' :: ([' '] ++
        (Decimal.ofWord w).toList)) := by
    simp [pair, Line.text]
  rw [figures?_of_mem h htext hn, figures_two v w (by decide) (by decide)]

theorem figures?_load
    (h : [.label (name ++ " Load: "), word v, .label ", Switches: ", word w] ∈ lines c k)
    (hn : ':' ∉ name.toList) :
    figures? (render c k) (name ++ " Load") = some [Decimal.ofWord v, Decimal.ofWord w] := by
  have htext : (Line.text [.label (name ++ " Load: "), word v, .label ", Switches: ",
      word w]).toList = (name ++ " Load").toList ++ ':' :: ' ' :: ((Decimal.ofWord v).toList ++
        ',' :: (" Switches: ".toList ++ (Decimal.ofWord w).toList)) := by
    simp [Line.text]
  have hname : ':' ∉ (name ++ " Load").toList := by
    simpa using hn
  rw [figures?_of_mem h htext hname, figures_cons (by decide),
    figures_two v w (by decide) (by decide)]

/-! ### The lines about a CPU -/

section Blocks

variable {i : Nat}

theorem colon_not_mem_indexed (hn : ':' ∉ name.toList) (i : Nat) :
    ':' ∉ (indexed name i).toList := by
  have hdigits : ':' ∉ Nat.toDigits 10 i := fun h =>
    absurd (IntLiteral.mem_alphabet_of_mem_toDigits i _ h) (by decide)
  simp [indexed, Decimal.ofNat, hn, hdigits]

theorem mem_lines_of_queues (h : l ∈ queues (.collect k)) : l ∈ lines c k := by
  simp [lines, h]

theorem mem_lines_of_load (h : l ∈ load (.collect k)) : l ∈ lines c k := by
  simp [lines, h]

variable (c : Controller) (k : Kernel)

theorem figures?_gdsq (hi : i < 10) : figures? (render c k) (indexed "gdsq_cnt" i) =
    some [Decimal.ofWord ((LoadSample.collect k).cpu i).running,
      Decimal.ofWord (((LoadSample.collect k).cpu i).switches &&& 0xFFFF)] := by
  refine figures?_pair (mem_lines_of_queues ?_) (colon_not_mem_indexed (by decide) i)
  simp only [queues, List.mem_append, List.mem_map, List.mem_range]
  exact Or.inl (Or.inl (Or.inl (Or.inl ⟨i, hi, rfl⟩)))

theorem figures?_timeout (hi : i < 8) : figures? (render c k) (indexed "pcp_timeout_cnt" i) =
    some [Decimal.ofWord
      (if 0 < ((LoadSample.collect k).cpu i).running then k.now % 1000 else 0)] := by
  refine figures?_single (mem_lines_of_queues ?_) (colon_not_mem_indexed (by decide) i)
  simp only [queues, List.mem_append, List.mem_map, List.mem_range]
  exact Or.inl (Or.inl (Or.inr ⟨i, hi, rfl⟩))

theorem figures?_ldsq (hi : i < 8) : figures? (render c k) (indexed "pcp_ldsq_cnt" i) =
    some [Decimal.ofWord ((LoadSample.collect k).cpu i).running,
      Decimal.ofWord (if i ∈ k.online then (k.now >>> 10) % 100 else 0)] := by
  refine figures?_pair (mem_lines_of_queues ?_) (colon_not_mem_indexed (by decide) i)
  simp only [queues, List.mem_append, List.mem_map, List.mem_range]
  exact Or.inl (Or.inr ⟨i, hi, rfl⟩)

theorem figures?_enql (hi : i < 8) : figures? (render c k) (indexed "pcp_enql_cnt" i) =
    some [Decimal.ofWord ((((LoadSample.collect k).cpu i).switches >>> 8) &&& 0xFF)] := by
  refine figures?_single (mem_lines_of_queues ?_) (colon_not_mem_indexed (by decide) i)
  simp only [queues, List.mem_append, List.mem_map, List.mem_range]
  exact Or.inr ⟨i, hi, rfl⟩

theorem figures?_cpu (hi : i < 8) : figures? (render c k) (indexed "CPU" i ++ " Load") =
    some [Decimal.ofWord ((LoadSample.collect k).cpu i).running,
      Decimal.ofWord (((LoadSample.collect k).cpu i).switches &&& 0xFFFFFF)] := by
  refine figures?_load (mem_lines_of_load ?_) (colon_not_mem_indexed (by decide) i)
  simp only [load, List.mem_append, List.mem_map, List.mem_range]
  exact Or.inr ⟨i, hi, rfl⟩

/-- The names of the lines that show the load of a CPU. -/
def loadNames (i : Nat) : List String :=
  [indexed "gdsq_cnt" i, indexed "pcp_ldsq_cnt" i, indexed "CPU" i ++ " Load"]

/-- The load of a CPU is the first number in three places. -/
theorem head?_figures? (hi : i < 8) : ∀ name ∈ loadNames i,
    (figures? (render c k) name).bind List.head? = some (Decimal.ofNat (k.shown i)) := by
  have hshown : Decimal.ofWord ((LoadSample.collect k).cpu i).running =
      Decimal.ofNat (k.shown i) := by
    rw [Decimal.ofWord, Kernel.toNat_running_cpu]
  intro name hname
  simp only [loadNames, List.mem_cons, List.not_mem_nil, or_false] at hname
  rcases hname with rfl | rfl | rfl
  · rw [figures?_gdsq c k (by omega), hshown]
    rfl
  · rw [figures?_ldsq c k hi, hshown]
    rfl
  · rw [figures?_cpu c k hi, hshown]
    rfl

/-- All numbers about a CPU that is offline are zero. -/
theorem figures?_offline (hoff : i ∉ k.online) :
    (i < 10 → figures? (render c k) (indexed "gdsq_cnt" i) = some ["0", "0"]) ∧
      (i < 8 → figures? (render c k) (indexed "pcp_timeout_cnt" i) = some ["0"] ∧
        figures? (render c k) (indexed "pcp_ldsq_cnt" i) = some ["0", "0"] ∧
        figures? (render c k) (indexed "pcp_enql_cnt" i) = some ["0"] ∧
        figures? (render c k) (indexed "CPU" i ++ " Load") = some ["0", "0"]) := by
  have hcpu : (LoadSample.collect k).cpu i = {} := by
    rw [LoadSample.cpu_collect, if_neg hoff]
  have hidle : ¬(0 : UInt64) < 0 := by decide
  refine ⟨fun hi => ?_, fun hi => ⟨?_, ?_, ?_, ?_⟩⟩
  · rw [figures?_gdsq c k hi, hcpu]
    decide
  · rw [figures?_timeout c k hi, hcpu, if_neg hidle]
    decide
  · rw [figures?_ldsq c k hi, hcpu, if_neg hoff]
    decide
  · rw [figures?_enql c k hi, hcpu]
    decide
  · rw [figures?_cpu c k hi, hcpu]
    decide

end Blocks

/-! ### The shape of a report -/

/-- The fixed texts of a line, without the numbers in them. -/
def outline (shape : List (Option String)) : String :=
  String.ofList (shape.flatMap fun part => (part.getD "").toList.filter fun ch => !isFigure ch)

theorem unnumbered_text (l : Line) : unnumbered l.text = outline l.shape := by
  rw [unnumbered, outline]
  congr 1
  induction l with
  | nil => rfl
  | cons p l ih =>
    rw [Line.text_cons, String.toList_append, List.filter_append, ih]
    cases p with
    | label text => rfl
    | number value =>
      have hnone : ((Piece.number value).text.toList.filter fun ch => !isFigure ch) = [] :=
        List.filter_eq_nil_iff.2 fun ch hch => by
          rw [not_isFigure_of_mem_ofInt ch hch]
          exact Bool.false_ne_true
      rw [hnone]
      rfl

/-- The lines without their numbers are the same in every report. -/
theorem unnumbered_render (c : Controller) (k : Kernel) :
    (linesOf (render c k)).map unnumbered = template.map outline := by
  rw [linesOf_render, ← shape_lines c k, List.map_map, List.map_map]
  exact List.map_congr_left fun l _ => unnumbered_text l

/-- A report is its lines, each closed by a line break. -/
theorem join_linesOf_render (c : Controller) (k : Kernel) :
    render c k = String.join ((linesOf (render c k)).map (· ++ "\n")) := by
  rw [linesOf_render, List.map_map]
  rfl

/-- The total, as it stands in both places. -/
theorem ofWord_totalRunning (hk : k.runnable < UInt64.size) :
    Decimal.ofWord (LoadSample.collect k).totalRunning = Decimal.ofNat k.runnable := by
  rw [Decimal.ofWord, LoadSample.totalRunning_collect, UInt64.toNat_ofNat_of_lt' hk]

/-- The first line begins with the total. -/
theorem head?_linesOf_render (hk : k.runnable < UInt64.size) (c : Controller) :
    (linesOf (render c k)).head? =
      some ("global stat:" ++ Decimal.ofNat k.runnable ++ ", " ++ Decimal.ofWord k.now) := by
  rw [linesOf_render, ← ofWord_totalRunning hk, List.head?_map]
  show some (Line.text (pair "global stat" (word _) (word k.now))) = _
  simp [pair, Line.text, String.append_assoc]

/-- **The blocks of a report agree with each other**, whatever the registry, the monitor and
the kernel are like, as long as the runnable tasks can be counted in a word.  A report has 112
lines, and without their numbers these are the same in every report.  The three lines that
show the load of a CPU show the same number, and all that is shown of a CPU that is offline is
zero.  Both totals are the sum over all CPUs that are online.  That is at least what the load
block adds up to, and no more than that exactly if nothing runs on the CPUs from number 8 on. -/
theorem blocks_agree (hk : k.runnable < UInt64.size) (c : Controller) :
    let text := render c k
    ((linesOf text).length = 112 ∧ text = String.join ((linesOf text).map (· ++ "\n")) ∧
        ∀ line ∈ linesOf text, '\n' ∉ line.toList) ∧
      (∀ c' k', (linesOf (render c' k')).map unnumbered = (linesOf text).map unnumbered ∧
        (entries (render c' k')).map Prod.fst = (entries text).map Prod.fst) ∧
      (∀ i < 8, ∀ name ∈ loadNames i,
        (figures? text name).bind List.head? = some (Decimal.ofNat (k.shown i))) ∧
      (∀ i ∉ k.online,
        (i < 10 → figures? text (indexed "gdsq_cnt" i) = some ["0", "0"]) ∧
        (i < 8 → figures? text (indexed "pcp_timeout_cnt" i) = some ["0"] ∧
          figures? text (indexed "pcp_ldsq_cnt" i) = some ["0", "0"] ∧
          figures? text (indexed "pcp_enql_cnt" i) = some ["0"] ∧
          figures? text (indexed "CPU" i ++ " Load") = some ["0", "0"])) ∧
      (linesOf text).head? =
        some ("global stat:" ++ Decimal.ofNat k.runnable ++ ", " ++ Decimal.ofWord k.now) ∧
      figures? text "Total Running Tasks" = some [Decimal.ofNat k.runnable] ∧
      ∑ i ∈ Finset.range 8, k.shown i ≤ k.runnable ∧
      (∑ i ∈ Finset.range 8, k.shown i = k.runnable ↔
        ∀ c ∈ k.online, 8 ≤ c → (k.load c).running = 0) := by
  intro text
  refine ⟨⟨?_, join_linesOf_render c k, ?_⟩, fun c' k' => ⟨?_, ?_⟩,
    fun i hi => head?_figures? c k hi, fun i hi => figures?_offline c k hi,
    head?_linesOf_render hk c, ?_, Kernel.sum_shown_le (by decide)⟩
  · rw [linesOf_render, List.length_map, length_lines]
  · intro line hline
    rw [linesOf_render] at hline
    obtain ⟨l, hl, rfl⟩ := List.mem_map.1 hline
    exact Line.lineBreak_not_mem_text (wellShaped_of_mem_lines hl)
  · rw [unnumbered_render, unnumbered_render]
  · rw [fst_entries, fst_entries]
  · rw [← ofWord_totalRunning hk]
    exact figures?_field (mem_lines_of_load (by simp [load])) (by decide)

/-- CPUs 1 and 9 are online, and the counters of the others are stale: CPU 1 shows its load in
three places, CPU 8 shows zeros, and CPU 9 is missing from the load block. -/
theorem blocks_agree_beyond :
    let k : Kernel :=
      { now := 1234, online := .ofList [1, 9],
        load := fun c => { running := .ofNat (c + 2), switches := 70000 } }
    let text := render {} k
    k.runnable = 14 ∧ k.runnable < UInt64.size ∧
      (∀ name ∈ loadNames 1, (figures? text name).bind List.head? = some "3") ∧
      figures? text "gdsq_cnt[8]" = some ["0", "0"] ∧
      (linesOf text).head? = some "global stat:14, 1234" ∧
      figures? text "Total Running Tasks" = some ["14"] ∧
      ∑ i ∈ Finset.range 8, k.shown i ≤ 14 ∧ ∑ i ∈ Finset.range 8, k.shown i ≠ 14 := by
  intro k text
  have hrun : k.runnable = 14 := by decide +kernel
  have hk : k.runnable < UInt64.size := by
    rw [hrun]
    decide
  obtain ⟨-, -, hshown, hoffline, hfirst, htotal, hle, hall⟩ := blocks_agree hk {}
  rw [hrun] at hfirst htotal hle hall
  have hload : Decimal.ofNat (k.shown 1) = "3" := by decide +kernel
  have hline : "global stat:" ++ Decimal.ofNat 14 ++ ", " ++ Decimal.ofWord k.now =
      "global stat:14, 1234" := by decide +kernel
  have hsum : Decimal.ofNat 14 = "14" := by decide
  rw [hline] at hfirst
  rw [hsum] at htotal
  refine ⟨hrun, hk, hload ▸ hshown 1 (by decide), (hoffline 8 (by decide)).1 (by decide), hfirst,
    htotal, hle, fun h => ?_⟩
  exact absurd (hall.1 h 9 (by decide) (by decide)) (by decide)

end Report
end CpuSteward
