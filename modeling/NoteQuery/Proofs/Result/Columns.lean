import Mathlib
import NoteQuery.Proofs.Text.Lines
import NoteQuery.Table

/-!
# Columns of a table

Every column of a table begins at one place in all lines. Its width is that of the widest cell, and two
spaces follow it. What a line leaves out at its end are blanks.
-/

namespace NoteQuery.Table

open NoteQuery.Text (isBlank dropFinalBlanks joinWith)

/-! ## Places -/

def start (ws : List Nat) (j : Nat) : Nat := (ws.take j).sum + 2 * j

def width (ws : List Nat) : Nat := ws.sum + 2 * (ws.length - 1)

def slot (ws : List Nat) (j : Nat) (cs : List Char) : List Char := (cs.drop (start ws j)).take (ws.getD j 0)

def padTo (n : Nat) (cs : List Char) : List Char := cs ++ List.replicate (n - cs.length) ' '

/-- A line that shows each cell in the column of its number, once it is filled with spaces. -/
structure InColumns (ws : List Nat) (cells : List String) (line : List Char) : Prop where
  length : line.length ≤ width ws
  slots : ∀ j (h : j < cells.length),
    dropFinalBlanks (slot ws j (padTo (width ws) line)) = dropFinalBlanks cells[j].toList

def Fits (ws : List Nat) (cells : List String) : Prop := List.Forall₂ (fun cell w => cell.length ≤ w) cells ws

/-! ## Widths -/

def widen (ws : List Nat) (row : List String) : List Nat := ws.zipWith (fun w cell => max w cell.length) row

theorem length_widen {ws : List Nat} {row : List String} (h : row.length = ws.length) :
    (widen ws row).length = ws.length := by
  simp [widen, h]

theorem fits_widen : ∀ {ws : List Nat} {row : List String}, row.length = ws.length → Fits (widen ws row) row
  | [], [], _ => List.Forall₂.nil
  | w :: ws, cell :: row, h => by
    have ih : Fits (widen ws row) row := fits_widen (Nat.succ.inj h)
    exact List.Forall₂.cons (Nat.le_max_right w cell.length) ih

theorem Fits.widen {row : List String} : ∀ {ws : List Nat} {cells : List String}, Fits ws cells →
    row.length = ws.length → Fits (Table.widen ws row) cells := by
  intro ws cells hfits
  unfold Fits at *
  induction hfits generalizing row with
  | nil =>
    intro h
    simp [Table.widen]
  | cons hcell _ ih =>
    intro h
    cases row with
    | nil => cases h
    | cons other row => exact List.Forall₂.cons (hcell.trans (Nat.le_max_left _ _)) (ih (Nat.succ.inj h))

theorem fits_foldl : ∀ {rows : List (List String)} {ws : List Nat}, (∀ row ∈ rows, row.length = ws.length) →
    (∀ cells, Fits ws cells → Fits (rows.foldl widen ws) cells) ∧ ∀ row ∈ rows, Fits (rows.foldl widen ws) row
  | [], ws, _ => ⟨fun _ h => h, fun _ h => nomatch h⟩
  | row :: rows, ws, h => by
    obtain ⟨hrow, hrows⟩ := List.forall_mem_cons.mp h
    have hmore : ∀ other ∈ rows, other.length = (widen ws row).length := by
      intro other hother
      rw [length_widen hrow, hrows other hother]
    obtain ⟨hkeep, hall⟩ := fits_foldl hmore
    refine ⟨fun cells hcells => hkeep cells (hcells.widen hrow), List.forall_mem_cons.mpr ⟨?_, hall⟩⟩
    exact hkeep row (fits_widen hrow)

section
variable {header : List String} {rows : List (List String)} (h : ∀ row ∈ rows, row.length = header.length)
include h

theorem fits_widths : ∀ cells ∈ header :: rows, Fits (widths header rows) cells := by
  have hlengths : ∀ row ∈ rows, row.length = (header.map (·.length)).length := by
    intro row hrow
    rw [List.length_map, h row hrow]
  obtain ⟨hkeep, hall⟩ := fits_foldl hlengths
  refine List.forall_mem_cons.mpr ⟨hkeep header ?_, hall⟩
  unfold Fits
  rw [List.forall₂_map_right_iff]
  exact List.forall₂_same.mpr fun _ _ => le_rfl

end

/-! ## One line -/

/-- The cells in their columns, with the blanks at the end of the line. -/
def aligned (ws : List Nat) (cells : List String) : List Char := joinWith [' ', ' '] (ws.zipWith pad cells)

theorem aligned_singleton (w : Nat) (cell : String) : aligned [w] [cell] = pad w cell := rfl

theorem aligned_cons_cons (w v : Nat) (ws : List Nat) (cell next : String) (cells : List String) :
    aligned (w :: v :: ws) (cell :: next :: cells) = pad w cell ++ [' ', ' '] ++ aligned (v :: ws) (next :: cells) := rfl

theorem length_pad {w : Nat} {cell : String} (h : cell.length ≤ w) : (pad w cell).length = w := by
  unfold pad
  rw [List.length_append, List.length_replicate, String.length_toList]
  omega

theorem width_cons_cons (w v : Nat) (ws : List Nat) : width (w :: v :: ws) = w + 2 + width (v :: ws) := by
  unfold width
  simp only [List.sum_cons, List.length_cons]
  omega

theorem start_succ (w : Nat) (ws : List Nat) (j : Nat) : start (w :: ws) (j + 1) = w + 2 + start ws j := by
  unfold start
  simp only [List.take_succ_cons, List.sum_cons]
  omega

theorem slot_succ (w : Nat) (ws : List Nat) (j : Nat) {first : List Char} (hfirst : first.length = w) (rest : List Char) :
    slot (w :: ws) (j + 1) (first ++ [' ', ' '] ++ rest) = slot ws j rest := by
  have hlength : (first ++ [' ', ' ']).length = w + 2 := by simp [hfirst]
  unfold slot
  rw [start_succ, ← List.drop_drop, ← hlength, List.drop_left, List.getD_cons_succ]

theorem length_aligned : ∀ {ws : List Nat} {cells : List String}, Fits ws cells → (aligned ws cells).length = width ws
  | [], [], _ => rfl
  | [w], [cell], h => by
    obtain ⟨hcell, -⟩ := List.forall₂_cons.mp h
    rw [aligned_singleton, length_pad hcell]
    simp [width]
  | w :: v :: ws, cell :: next :: cells, h => by
    obtain ⟨hcell, hrest⟩ := List.forall₂_cons.mp h
    rw [aligned_cons_cons, width_cons_cons, List.length_append, List.length_append, length_pad hcell,
      length_aligned hrest]
    rfl
  | [_], _ :: _ :: _, h => nomatch (List.forall₂_cons.mp h).2
  | _ :: _ :: _, [_], h => nomatch (List.forall₂_cons.mp h).2

theorem slot_aligned : ∀ {ws : List Nat} {cells : List String}, Fits ws cells → ∀ j (h : j < cells.length),
    ∃ w, slot ws j (aligned ws cells) = pad w cells[j]
  | [], [], _, _, hj => nomatch hj
  | [w], [cell], h, j, hj => by
    obtain ⟨hcell, -⟩ := List.forall₂_cons.mp h
    obtain rfl : j = 0 := Nat.lt_one_iff.mp hj
    refine ⟨w, ?_⟩
    rw [aligned_singleton]
    -- the last cell is not cut off by a width
    exact List.take_of_length_le (length_pad hcell).le
  | w :: v :: ws, cell :: next :: cells, h, j, hj => by
    obtain ⟨hcell, hrest⟩ := List.forall₂_cons.mp h
    rw [aligned_cons_cons]
    cases j with
    | zero =>
      refine ⟨w, ?_⟩
      unfold slot
      rw [List.append_assoc]
      exact List.take_left' (length_pad hcell)
    | succ j =>
      rw [slot_succ w (v :: ws) j (length_pad hcell)]
      exact slot_aligned hrest j (Nat.lt_of_succ_lt_succ hj)
  | [_], _ :: _ :: _, h, _, _ => nomatch (List.forall₂_cons.mp h).2
  | _ :: _ :: _, [_], h, _, _ => nomatch (List.forall₂_cons.mp h).2

theorem dropFinalBlanks_window (line : List Char) {blanks : List Char} (h : ∀ c ∈ blanks, isBlank c = true) (i n : Nat) :
    dropFinalBlanks (((line ++ blanks).drop i).take n) = dropFinalBlanks ((line.drop i).take n) := by
  rw [List.drop_append, List.take_append]
  apply Text.dropFinalBlanks_append
  intro c hc
  exact h c (List.mem_of_mem_drop (List.mem_of_mem_take hc))

theorem isBlank_of_mem_replicate {n : Nat} {c : Char} (h : c ∈ List.replicate n ' ') : isBlank c = true := by
  rw [List.eq_of_mem_replicate h]
  rfl

theorem inColumns_of_aligned {ws : List Nat} {cells : List String} {line blanks : List Char} (hfits : Fits ws cells)
    (hline : line ++ blanks = aligned ws cells) (hblanks : ∀ c ∈ blanks, isBlank c = true) : InColumns ws cells line where
  length := by
    rw [← length_aligned hfits, ← hline, List.length_append]
    exact Nat.le_add_right _ _
  slots := by
    intro j hj
    obtain ⟨w, hslot⟩ := slot_aligned hfits j hj
    have hpadded := dropFinalBlanks_window line
      (fun c => isBlank_of_mem_replicate (n := width ws - line.length)) (start ws j) (ws.getD j 0)
    have hwhole := dropFinalBlanks_window line hblanks (start ws j) (ws.getD j 0)
    rw [hline] at hwhole
    unfold slot at hslot ⊢
    rw [padTo, hpadded, ← hwhole, hslot, pad]
    exact Text.dropFinalBlanks_append fun c => isBlank_of_mem_replicate

theorem inColumns_line {ws : List Nat} {cells : List String} (hfits : Fits ws cells) :
    InColumns ws cells (line ws cells).toList := by
  obtain ⟨blanks, hline, hblanks⟩ := Text.exists_finalBlanks (aligned ws cells)
  refine inColumns_of_aligned hfits ?_ hblanks
  rw [← hline, line, String.toList_ofList]
  rfl

/-! ## The rule -/

def dashes (ws : List Nat) : List String := ws.map fun w => String.ofList (List.replicate w '-')

theorem length_dash (w : Nat) : (String.ofList (List.replicate w '-')).length = w := by
  rw [← String.length_toList, String.toList_ofList, List.length_replicate]

theorem fits_dashes (ws : List Nat) : Fits ws (dashes ws) := by
  unfold Fits dashes
  rw [List.forall₂_map_left_iff]
  exact List.forall₂_same.mpr fun w _ => (length_dash w).le

theorem toList_rule (ws : List Nat) : (rule ws).toList = aligned ws (dashes ws) := by
  have hpad : ws.zipWith pad (dashes ws) = ws.map fun w => List.replicate w '-' := by
    unfold dashes
    rw [List.zipWith_map_right, List.zipWith_self]
    apply List.map_congr_left
    intro w _
    simp [pad]
  rw [rule, String.toList_ofList, aligned, hpad]

theorem inColumns_rule (ws : List Nat) : InColumns ws (dashes ws) (rule ws).toList :=
  inColumns_of_aligned (fits_dashes ws) ((List.append_nil _).trans (toList_rule ws)) (List.forall_mem_nil _)

theorem inColumns_lines {header : List String} {rows : List (List String)} (h : ∀ row ∈ rows, row.length = header.length) :
    List.Forall₂ (InColumns (widths header rows)) (header :: dashes (widths header rows) :: rows)
      ((lines header rows).map String.toList) := by
  obtain ⟨hheader, hrows⟩ := List.forall_mem_cons.mp (fits_widths h)
  unfold lines
  rw [List.map_cons, List.map_cons, List.map_map]
  refine List.Forall₂.cons (inColumns_line hheader) (List.Forall₂.cons (inColumns_rule _) ?_)
  rw [List.forall₂_map_right_iff]
  exact List.forall₂_same.mpr fun row hrow => inColumns_line (hrows row hrow)

/-! ## Line feeds -/

theorem mem_pad {w : Nat} {cell : String} {c : Char} (hc : c ≠ ' ') : c ∈ pad w cell ↔ c ∈ cell.toList := by
  unfold pad
  rw [List.mem_append, List.mem_replicate]
  tauto

theorem mem_aligned {c : Char} (hc : c ≠ ' ') : ∀ {ws : List Nat} {cells : List String}, Fits ws cells →
    (c ∈ aligned ws cells ↔ ∃ cell ∈ cells, c ∈ cell.toList)
  | [], [], _ => by simp [aligned, joinWith]
  | [w], [cell], _ => by
    rw [aligned_singleton, mem_pad hc]
    simp
  | w :: v :: ws, cell :: next :: cells, h => by
    have ih := mem_aligned hc (List.forall₂_cons.mp h).2
    rw [aligned_cons_cons, List.mem_append, List.mem_append, mem_pad hc, ih, List.exists_mem_cons_iff]
    simp [hc]
  | [_], _ :: _ :: _, h => nomatch (List.forall₂_cons.mp h).2
  | _ :: _ :: _, [_], h => nomatch (List.forall₂_cons.mp h).2

/-- A name of a row breaks the line of the row if it holds a line feed, behind which the line goes on. -/
def BreaksLine (name : String) (cells : List String) : Prop :=
  ∃ before after, name.toList = before ++ '\n' :: after ∧
    ∃ c ∈ after ++ cells.flatMap String.toList, isBlank c = false

theorem exists_tail {w : Nat} {ws : List Nat} {name : String} {cells : List String} (h : Fits (w :: ws) (name :: cells)) :
    ∃ tail, aligned (w :: ws) (name :: cells) = name.toList ++ tail ∧
      ∀ c, c ≠ ' ' → (c ∈ tail ↔ ∃ cell ∈ cells, c ∈ cell.toList) := by
  have hspaces : ∀ c, c ≠ ' ' → c ∉ List.replicate (w - name.length) ' ' := fun c hc hmem =>
    hc (List.eq_of_mem_replicate hmem)
  obtain ⟨-, hrest⟩ := List.forall₂_cons.mp h
  cases hrest with
  | nil =>
    refine ⟨List.replicate (w - name.length) ' ', rfl, ?_⟩
    intro c hc
    simp [hspaces c hc]
  | @cons next v cells ws hnext hcells =>
    refine ⟨List.replicate (w - name.length) ' ' ++ [' ', ' '] ++ aligned (v :: ws) (next :: cells), ?_, ?_⟩
    · rw [aligned_cons_cons, pad]
      simp only [List.append_assoc]
    · intro c hc
      rw [List.mem_append, List.mem_append, mem_aligned hc (List.Forall₂.cons hnext hcells)]
      simp [hc]

theorem mem_line_iff {ws : List Nat} {name : String} {cells : List String} (hfits : Fits ws (name :: cells))
    (hcells : ∀ cell ∈ cells, '\n' ∉ cell.toList) : '\n' ∈ (line ws (name :: cells)).toList ↔ BreaksLine name cells := by
  obtain ⟨w, ws, rfl⟩ := List.exists_cons_of_length_pos (hfits.length_eq ▸ Nat.succ_pos _ : 0 < ws.length)
  obtain ⟨tail, htail, hmem⟩ := exists_tail hfits
  have hfree : '\n' ∉ tail := by
    intro h
    obtain ⟨cell, hcell, h⟩ := (hmem '\n' (by decide)).mp h
    exact hcells cell hcell h
  have hblank : ∀ c, isBlank c = false → (c ∈ tail ↔ c ∈ cells.flatMap String.toList) := by
    intro c hc
    rw [List.mem_flatMap]
    refine hmem c ?_
    rintro rfl
    cases hc
  have hline : (line (w :: ws) (name :: cells)).toList = dropFinalBlanks (name.toList ++ tail) := by
    rw [line, String.toList_ofList, ← htail]
    rfl
  -- a line feed is a blank, which stays only before something that is none
  rw [hline, Text.mem_dropFinalBlanks_iff]
  constructor
  · rintro ⟨before, after, happ, d, hd, hnot⟩
    have hd : d ∈ after := by
      rcases List.mem_cons.mp hd with rfl | hd
      · cases hnot
      · exact hd
    -- the line feed stands in the name, for the cells have none
    rcases List.append_eq_append_iff.mp happ with ⟨inside, -, htail⟩ | ⟨inside, hname, hafter⟩
    · exact absurd (htail ▸ List.mem_append_right _ List.mem_cons_self) hfree
    · cases inside with
      | nil =>
        rw [List.nil_append] at hafter
        exact absurd (hafter ▸ List.mem_cons_self) hfree
      | cons c inside =>
        rw [List.cons_append] at hafter
        obtain ⟨rfl, rfl⟩ := List.cons.inj hafter
        refine ⟨before, inside, hname, d, ?_, hnot⟩
        rw [List.mem_append] at hd ⊢
        exact hd.imp_right (hblank d hnot).mp
  · rintro ⟨before, after, hname, d, hd, hnot⟩
    refine ⟨before, after ++ tail, ?_, d, ?_, hnot⟩
    · rw [hname, List.append_assoc, List.cons_append]
    · rw [List.mem_append] at hd
      exact List.mem_cons_of_mem _ (List.mem_append.mpr (hd.imp_right (hblank d hnot).mpr))

theorem not_mem_line {ws : List Nat} {cells : List String} (hfits : Fits ws cells)
    (hcells : ∀ cell ∈ cells, '\n' ∉ cell.toList) : '\n' ∉ (line ws cells).toList := by
  intro h
  obtain ⟨blanks, hline, -⟩ := Text.exists_finalBlanks (aligned ws cells)
  have hmem : '\n' ∈ aligned ws cells := by
    rw [← hline]
    refine List.mem_append_left _ ?_
    rwa [line, String.toList_ofList] at h
  obtain ⟨cell, hcell, hmem⟩ := (mem_aligned (by decide) hfits).mp hmem
  exact hcells cell hcell hmem

theorem not_mem_rule (ws : List Nat) : '\n' ∉ (rule ws).toList := by
  rw [toList_rule, mem_aligned (by decide) (fits_dashes ws)]
  rintro ⟨cell, hcell, hmem⟩
  obtain ⟨w, -, rfl⟩ := List.mem_map.mp hcell
  rw [String.toList_ofList] at hmem
  cases List.eq_of_mem_replicate hmem

end NoteQuery.Table
