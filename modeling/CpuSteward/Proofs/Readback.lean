import CpuSteward.Proofs.Backup
import Mathlib.Data.List.DropRight

/-!
# Reading a report

A report is a text for people, and scripts read it as well.  They cut it into lines at the
line breaks and a line at its colon.  This finds every value of the registry again: no number
can bring a line break or a colon with it, so the fixed texts alone decide where the cuts are,
and no two lines have one name.

## Main definitions

* `Report.linesOf`, `Report.cut`, `Report.entries` — a text cut into lines, and lines into name
  and value.
* `Report.value?` — the integer on the one line that has a name.
* `Report.Line.shape`, `Report.template` — the fixed texts of a line and of all lines.

## Main results

* `Report.shape_lines` — the fixed texts are the same in every report.
* `Report.linesOf_render`, `Report.value?_of_mem` — the cuts find the lines, and a name finds
  its line.
* `Report.render_faithful` — **a report shows every value of the registry.**
-/

namespace CpuSteward

namespace Report

variable {c : Controller} {k : Kernel} {l : Line} {name rest : List Char}

/-! ### Cutting a text up -/

/-- The lines of a text.  What follows the last line break is none. -/
def linesOf (text : String) : List String :=
  (text.toList.splitOn '\n').dropLast.map String.ofList

/-- A line cut at its first colon, into its name and what is behind that. -/
def cut (line : String) : String × String :=
  (String.ofList (line.toList.takeWhile (· ≠ ':')),
    String.ofList (line.toList.dropWhile (· ≠ ':')).tail)

/-- The lines of a text, each with its name. -/
def entries (text : String) : List (String × String) := (linesOf text).map cut

/-- The integer on the line with a name, if there is one such line and no other. -/
def value? (text name : String) : Option Int32 :=
  match (entries text).filter fun e => e.1 == name with
  | [e] => IntLiteral.read? e.2.toUTF8
  | _ => none

/-- Texts that line breaks close are found again, with nothing after them. -/
theorem splitOn_join {ls : List String} (h : ∀ l ∈ ls, '\n' ∉ l.toList) :
    (String.join (ls.map (· ++ "\n"))).toList.splitOn '\n' = ls.map String.toList ++ [[]] := by
  induction ls with
  | nil => rfl
  | cons l ls ih =>
    obtain ⟨hl, hls⟩ := List.forall_mem_cons.1 h
    have htext : (String.join ((l :: ls).map (· ++ "\n"))).toList =
        l.toList ++ '\n' :: (String.join (ls.map (· ++ "\n"))).toList := by
      simp
    rw [htext, List.splitOn_append_cons_self_of_not_mem hl, ih hls, List.map_cons,
      List.cons_append]

theorem cut_of_toList {line : String} (h : line.toList = name ++ ':' :: rest) (hn : ':' ∉ name) :
    cut line = (String.ofList name, String.ofList rest) := by
  have hname : ∀ c ∈ name, decide (c ≠ ':') = true := fun c hc =>
    decide_eq_true fun he => hn (he ▸ hc)
  rw [cut, h, List.takeWhile_append_of_pos hname, List.dropWhile_append_of_pos hname]
  simp

/-- Where no two lines have one name, a name finds its line. -/
theorem filter_fst_eq {es : List (String × String)} (hes : (es.map Prod.fst).Nodup)
    {e : String × String} (he : e ∈ es) : (es.filter fun e' => e'.1 == e.1) = [e] := by
  induction es with
  | nil => cases he
  | cons e' es ih =>
    rw [List.map_cons, List.nodup_cons] at hes
    obtain ⟨hnew, hes⟩ := hes
    rcases List.mem_cons.1 he with rfl | he
    · have hnone : (es.filter fun e' => e'.1 == e.1) = [] := by
        rw [List.filter_eq_nil_iff]
        intro e' he' hname
        exact hnew (List.mem_map.2 ⟨e', he', by simpa using hname⟩)
      rw [List.filter_cons_of_pos (by simp), hnone]
    · have hne : ¬(e'.1 == e.1) = true := by
        intro hname
        exact hnew (List.mem_map.2 ⟨e, he, by simpa using (beq_iff_eq.1 hname).symm⟩)
      rw [List.filter_cons, if_neg hne, ih hes he]

/-! ### The fixed texts of a report -/

namespace Line

/-- The fixed texts of a line in their places, with gaps for the numbers. -/
def shape : Line → List (Option String)
  | [] => []
  | .label text :: l => some text :: shape l
  | .number _ :: l => none :: shape l

@[simp] theorem shape_nil : shape [] = [] := rfl

@[simp] theorem shape_label (text : String) (l : Line) :
    shape (.label text :: l) = some text :: shape l := rfl

@[simp] theorem shape_number (value : Int) (l : Line) :
    shape (.number value :: l) = none :: shape l := rfl

@[simp] theorem shape_word (w : UInt64) (l : Line) : shape (word w :: l) = none :: shape l := rfl

@[simp] theorem shape_field (name : String) (value : Piece) :
    shape (field name value) = some (name ++ ": ") :: shape [value] := rfl

@[simp] theorem shape_pair (name : String) (first second : Piece) :
    shape (pair name first second) =
      some (name ++ ":") :: (shape [first] ++ some ", " :: shape [second]) := by
  cases first <;> rfl

@[simp] theorem text_cons (p : Piece) (l : Line) : text (p :: l) = p.text ++ text l := by
  rw [text, List.map_cons, String.join_cons]
  rfl

theorem text_field (name : String) (value : Piece) :
    (text (field name value)).toList = name.toList ++ ':' :: ' ' :: value.text.toList := by
  simp [field, text, Piece.text]

end Line

/-- What the shape of a line has to be like: it begins with a fixed text that has a colon, and
none of its texts has a line break. -/
def wellShaped : List (Option String) → Bool
  | some text :: shape => text.toList.contains ':' &&
      (some text :: shape).all fun part => part.all fun text => !text.toList.contains '\n'
  | _ => false

/-- The name of the lines of a shape. -/
def nameOf : List (Option String) → String
  | some text :: _ => String.ofList (text.toList.takeWhile (· ≠ ':'))
  | _ => ""

/-- The fixed texts of a report, line by line. -/
def template : List (List (Option String)) := (lines {} {}).map Line.shape

/-- The fixed texts are the same in every report. -/
theorem shape_lines (c : Controller) (k : Kernel) : (lines c k).map Line.shape = template := by
  simp only [template, lines, totals, queues, switches, load, monitor, tunables,
    Registry.snapshot, List.map_append, List.map_map, List.map_cons, List.map_nil,
    Function.comp_def, Line.shape_nil, Line.shape_label, Line.shape_number, Line.shape_word,
    Line.shape_pair, Line.shape_field]

theorem wellShaped_of_mem_lines (h : l ∈ lines c k) : wellShaped l.shape = true := by
  have hall : ∀ shape ∈ template, wellShaped shape = true := by decide +kernel
  exact hall _ (shape_lines c k ▸ List.mem_map_of_mem h)

/-- No two lines of a report have one name. -/
theorem nodup_names : (template.map nameOf).Nodup := by decide +kernel

/-! ### The lines of a report -/

/-- A decimal text has digits and a sign only. -/
theorem not_mem_ofInt {ch : Char} (h : ch ∉ '-' :: IntLiteral.alphabet 10) (z : Int) :
    ch ∉ (Decimal.ofInt z).toList :=
  fun hmem => h (IntLiteral.mem_of_mem_ofInt ch hmem)

theorem Line.not_mem_text {ch : Char} (hch : ch ∉ '-' :: IntLiteral.alphabet 10)
    (h : ∀ text, some text ∈ l.shape → ch ∉ text.toList) : ch ∉ l.text.toList := by
  induction l with
  | nil => simp [text]
  | cons p l ih =>
    have hl : ch ∉ (Line.text l).toList := by
      refine ih fun text ht => h text ?_
      cases p <;> exact List.mem_cons_of_mem _ ht
    have hp : ch ∉ p.text.toList := by
      cases p with
      | label text => exact h text List.mem_cons_self
      | number value => exact not_mem_ofInt hch value
    rw [text_cons, String.toList_append, List.mem_append]
    exact fun hmem => hmem.elim hp hl

theorem Line.lineBreak_not_mem_text (h : wellShaped l.shape = true) : '\n' ∉ l.text.toList := by
  refine not_mem_text (by decide) fun text ht hmem => ?_
  cases hs : l.shape with
  | nil => rw [hs] at ht; cases ht
  | cons first shape =>
    cases first with
    | none => rw [hs] at h; cases h
    | some s =>
      rw [hs] at h ht
      have hall := List.all_eq_true.1 (Bool.and_eq_true_iff.1 h).2 _ ht
      simp [hmem] at hall

/-- The name of a line is in its shape. -/
theorem Line.fst_cut (h : wellShaped l.shape = true) : (cut l.text).1 = nameOf l.shape := by
  match l, h with
  | .label s :: l, h =>
    have hcolon : ':' ∈ s.toList := by
      simpa using (Bool.and_eq_true_iff.1 h).1
    obtain ⟨name, more, hs, hname⟩ := List.eq_append_cons_of_mem hcolon
    have htext : (Line.text (.label s :: l)).toList =
        name ++ ':' :: (more ++ (Line.text l).toList) := by
      rw [text_cons, String.toList_append, Piece.text, hs, List.append_assoc, List.cons_append]
    have htake : ∀ c ∈ name, decide (c ≠ ':') = true := fun c hc =>
      decide_eq_true fun he => hname (he ▸ hc)
    rw [cut_of_toList htext hname, shape_label, nameOf, hs, List.takeWhile_append_of_pos htake]
    simp

theorem splitOn_render (c : Controller) (k : Kernel) :
    (render c k).toList.splitOn '\n' = (lines c k).map (fun l => l.text.toList) ++ [[]] := by
  have hrender : render c k = String.join (((lines c k).map Line.text).map (· ++ "\n")) := by
    rw [List.map_map]
    rfl
  rw [hrender, splitOn_join, List.map_map]
  · rfl
  · intro text ht
    obtain ⟨l, hl, rfl⟩ := List.mem_map.1 ht
    exact Line.lineBreak_not_mem_text (wellShaped_of_mem_lines hl)

/-- The lines that were put one below the other are found again. -/
theorem linesOf_render (c : Controller) (k : Kernel) :
    linesOf (render c k) = (lines c k).map Line.text := by
  rw [linesOf, splitOn_render, List.dropLast_concat, List.map_map]
  exact List.map_congr_left fun l _ => String.ofList_toList

theorem fst_entries (c : Controller) (k : Kernel) :
    (entries (render c k)).map Prod.fst = template.map nameOf := by
  rw [entries, linesOf_render, ← shape_lines c k, List.map_map, List.map_map, List.map_map]
  exact List.map_congr_left fun l hl => Line.fst_cut (wellShaped_of_mem_lines hl)

/-- A line that is in a report is found by its name. -/
theorem filter_entries_of_mem {name value : String} (h : l ∈ lines c k)
    (hcut : cut l.text = (name, value)) :
    ((entries (render c k)).filter fun e => e.1 == name) = [(name, value)] := by
  have hmem : (name, value) ∈ entries (render c k) := by
    rw [entries, linesOf_render, ← hcut]
    exact List.mem_map_of_mem (List.mem_map_of_mem h)
  have hnodup : ((entries (render c k)).map Prod.fst).Nodup := by
    rw [fst_entries]
    exact nodup_names
  have hfilter := filter_fst_eq hnodup hmem
  exact hfilter

/-- The value of a line that is in a report is found under its name. -/
theorem value?_of_mem {name value : String} (h : l ∈ lines c k)
    (hcut : cut l.text = (name, value)) :
    value? (render c k) name = IntLiteral.read? value.toUTF8 := by
  rw [value?, filter_entries_of_mem h hcut]

/-! ### The values of a report -/

/-- The line of a tunable. -/
def tunableLine (r : Registry) (t : Tunable) : Line :=
  [.label (t.path ++ ":"), .number (r.get t).toInt]

theorem tunables_eq (r : Registry) : tunables r = Tunable.all.map (tunableLine r) := by
  rw [tunables, Registry.snapshot, List.map_map]
  rfl

theorem text_tunableLine (r : Registry) (t : Tunable) :
    (tunableLine r t).text.toList = t.path.toList ++ ':' :: (Decimal.ofInt32 (r.get t)).toList := by
  simp [tunableLine, Line.text, Piece.text, Decimal.ofInt32]

theorem colon_not_mem_path (t : Tunable) : ':' ∉ t.path.toList := by
  cases t <;> decide

/-- The line of a tunable has one colon. -/
theorem splitOn_tunableLine (r : Registry) (t : Tunable) :
    (tunableLine r t).text.toList.splitOn ':' =
      [t.path.toList, (Decimal.ofInt32 (r.get t)).toList] := by
  have hvalue : ':' ∉ (Decimal.ofInt32 (r.get t)).toList := not_mem_ofInt (by decide) _
  rw [text_tunableLine, List.splitOn_append_cons_self_of_not_mem (colon_not_mem_path t),
    List.splitOn_eq_singleton hvalue]

/-- The lines of the tunables are the last ones. -/
theorem rtake_linesOf_render (c : Controller) (k : Kernel) :
    (linesOf (render c k)).rtake 36 =
      Tunable.all.map fun t => (tunableLine c.registry t).text := by
  rw [linesOf_render, lines, tunables_eq, List.map_append, List.map_map, List.rtake]
  refine List.drop_left' ?_
  rw [List.length_append, List.length_map, List.length_map, Tunable.length_all,
    Nat.add_sub_cancel]

theorem tunableLine_mem (c : Controller) (k : Kernel) (t : Tunable) :
    tunableLine c.registry t ∈ lines c k := by
  rw [lines, tunables_eq]
  exact List.mem_append_right _ (List.mem_map_of_mem t.mem_all)

/-- The decimal text of a word is read as the word. -/
theorem read?_text (v : Int32) : IntLiteral.read? (Decimal.ofInt32 v).toUTF8 = some v := by
  have h := IntLiteral.read?_padded v (List.forall_mem_nil _) (List.forall_mem_nil _) (by decide)
  rwa [String.ofList_nil, String.empty_append, String.append_empty] at h

theorem value?_path (c : Controller) (k : Kernel) (t : Tunable) :
    value? (render c k) t.path = some (c.registry.get t) := by
  have hcut := cut_of_toList (text_tunableLine c.registry t) (colon_not_mem_path t)
  rw [String.ofList_toList, String.ofList_toList] at hcut
  rw [value?_of_mem (tunableLine_mem c k t) hcut, read?_text]

/-- A line with one number shows the number. -/
theorem value?_field {name : String} {v : Int32} (h : field name (.number v.toInt) ∈ lines c k)
    (hn : ':' ∉ name.toList) : value? (render c k) name = some v := by
  have hcut := cut_of_toList (Line.text_field name (.number v.toInt)) hn
  rw [String.ofList_toList] at hcut
  rw [value?_of_mem h hcut]
  have hblank : ∀ c ∈ [' '], c ∈ IntLiteral.padding := fun c hc =>
    List.mem_singleton.1 hc ▸ List.mem_cons_self
  have hread := IntLiteral.read?_padded v hblank (List.forall_mem_nil _) (by decide)
  have htext : String.ofList (' ' :: (Piece.number v.toInt).text.toList) =
      String.ofList [' '] ++ Decimal.ofInt32 v ++ String.ofList [] := by
    rw [← String.toList_inj]
    simp [Piece.text, Decimal.ofInt32]
  rw [htext, hread]

/-- **A report shows every value of the registry**, at any load, at any time, and whenever the
latest pass was.  It is cut into lines that line breaks close.  The last 36 lines, cut at their
colons, are the paths of the tunables in order, with literals of their values.  The lines about
the threshold, the interval and the rebalances show what those about the tunables show, and
that about the switch shows whether it is zero.  So two reports that are the same are reports
of one registry. -/
theorem render_faithful (c : Controller) (k : Kernel) :
    let text := render c k
    let r := c.registry
    (text.toList.splitOn '\n').getLast? = some [] ∧
      List.Forall₂ (fun (line : String) (t : Tunable) => ∃ value : String,
        line.toList.splitOn ':' = [t.path.toList, value.toList] ∧
          IntLiteral.read? value.toUTF8 = some (r.get t))
        ((linesOf text).rtake 36) Tunable.all ∧
      (∀ t : Tunable, value? text t.path = some (r.get t)) ∧
      value? text "Performance Threshold" = value? text "policy/cpu_performance_threshold" ∧
      value? text "Load Balance Interval" = value? text "policy/load_balance_interval" ∧
      value? text "Rebalance Count" = value? text "policy/nr_rebalance" ∧
      (∃ v, value? text "Policy Optimization" = some v ∧
        (v = 0 ↔ r.get .policyOptimizationEnabled = 0)) ∧
      ∀ c' k', render c' k' = text → c'.registry = r := by
  intro text r
  have hpath := value?_path c k
  refine ⟨?_, ?_, hpath, ?_, ?_, ?_, ?_, fun c' k' htext => Registry.ext_get fun t => ?_⟩
  · rw [splitOn_render, List.getLast?_concat]
  · rw [rtake_linesOf_render, List.forall₂_map_left_iff, List.forall₂_same]
    exact fun t _ => ⟨Decimal.ofInt32 (r.get t), splitOn_tunableLine r t, read?_text _⟩
  · exact (value?_field (by simp [lines, monitor]) (by decide)).trans
      (hpath .cpuPerformanceThreshold).symm
  · exact (value?_field (by simp [lines, monitor]) (by decide)).trans
      (hpath .loadBalanceInterval).symm
  · exact (value?_field (by simp [lines, monitor]) (by decide)).trans (hpath .nrRebalance).symm
  · refine ⟨if c.enabled then 1 else 0, value?_field ?_ (by decide), ?_⟩
    · cases he : c.enabled <;> simp [lines, monitor, he]
    · by_cases hr : r.get .policyOptimizationEnabled = 0 <;> simp [Controller.enabled, r, hr]
  · exact Option.some.inj ((value?_path c' k' t).symm.trans (htext ▸ hpath t))

end Report
end CpuSteward
