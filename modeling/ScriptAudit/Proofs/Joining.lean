import ScriptAudit.Proofs.Ranking
import ScriptAudit.Report.Basic

namespace ScriptAudit

namespace Finding

/-- Ranking a part beforehand does not show in the ranking of the whole. -/
theorem ranked_append_ranked (before middle after : List Finding) :
    ranked (before ++ (ranked middle ++ after)) = ranked (before ++ (middle ++ after)) := by
  apply ranked_congr
  intro k
  simp only [List.filter_append, ranked_filter_rank]

theorem ranked_ranked (findings : List Finding) : ranked (ranked findings) = ranked findings := by
  simpa using ranked_append_ranked [] findings []

end Finding

namespace Report

theorem foldr_add_append (xs ys : List Int) :
    (xs ++ ys).foldr (· + ·) 0 = xs.foldr (· + ·) 0 + ys.foldr (· + ·) 0 := by
  induction xs with
  | nil => simp
  | cons x xs ih =>
    rw [List.cons_append, List.foldr_cons, List.foldr_cons, ih]
    omega

@[simp]
theorem findings_join_nil : (join []).findings = [] := List.mergeSort_nil

/-- All that a join depends on. -/
theorem join_congr {rs ts : List Report}
    (hfindings : Finding.ranked (rs.flatMap (·.findings)) = Finding.ranked (ts.flatMap (·.findings)))
    (hskipped : rs.flatMap (·.skipped) = ts.flatMap (·.skipped))
    (hrules : (rs.map (·.rulesSkipped)).foldr (· + ·) 0 = (ts.map (·.rulesSkipped)).foldr (· + ·) 0)
    (hfiles : (rs.map (·.filesScanned)).foldr (· + ·) 0 = (ts.map (·.filesScanned)).foldr (· + ·) 0) :
    join rs = join ts := by
  simp only [join, hfindings, hskipped, hrules, hfiles]

/-- Reports that are joined beforehand count as if they stood there one by one. -/
theorem join_append_join (before middle after : List Report) :
    join (before ++ join middle :: after) = join (before ++ (middle ++ after)) := by
  have hsum (count : Report → Int) (h : count (join middle) = (middle.map count).foldr (· + ·) 0) :
      ((before ++ join middle :: after).map count).foldr (· + ·) 0 =
        ((before ++ (middle ++ after)).map count).foldr (· + ·) 0 := by
    simp only [List.map_append, List.map_cons, foldr_add_append, List.foldr_cons, h]
  apply join_congr
  · simp only [List.flatMap_append, List.flatMap_cons, join, Finding.ranked_append_ranked]
  · simp only [List.flatMap_append, List.flatMap_cons, join]
  · exact hsum (·.rulesSkipped) rfl
  · exact hsum (·.filesScanned) rfl

end Report

/-- Reports in groups, which may themselves consist of groups. -/
inductive Grouping where
  | report (r : Report)
  | group (members : List Grouping)

namespace Grouping

mutual

/-- Joins every group, the innermost first. -/
def joined : Grouping → Report
  | report r => r
  | group members => Report.join (joinedEach members)

def joinedEach : List Grouping → List Report
  | [] => []
  | member :: rest => member.joined :: joinedEach rest

end

mutual

/-- The reports from left to right, whatever groups they are in. -/
def reports : Grouping → List Report
  | report r => [r]
  | group members => reportsOfEach members

def reportsOfEach : List Grouping → List Report
  | [] => []
  | member :: rest => member.reports ++ reportsOfEach rest

end

mutual

/-- A group among other reports can be taken apart. -/
theorem join_joined (before after : List Report) (g : Grouping) :
    Report.join (before ++ g.joined :: after) = Report.join (before ++ (g.reports ++ after)) := by
  cases g with
  | report r => rfl
  | group members =>
    rw [joined, reports, Report.join_append_join]
    exact join_joinedEach before after members

theorem join_joinedEach (before after : List Report) (members : List Grouping) :
    Report.join (before ++ (joinedEach members ++ after)) =
      Report.join (before ++ (reportsOfEach members ++ after)) := by
  cases members with
  | nil => rfl
  | cons member rest =>
    calc Report.join (before ++ (joinedEach (member :: rest) ++ after))
      _ = Report.join (before ++ member.joined :: (joinedEach rest ++ after)) := rfl
      _ = Report.join ((before ++ member.reports) ++ (joinedEach rest ++ after)) := by
        rw [join_joined before _ member, List.append_assoc]
      _ = Report.join ((before ++ member.reports) ++ (reportsOfEach rest ++ after)) := join_joinedEach _ after rest
      _ = Report.join (before ++ (reportsOfEach (member :: rest) ++ after)) := by
        rw [reportsOfEach, List.append_assoc, List.append_assoc]

end

/-- It makes no difference in which groups reports are joined, so that joining is associative, and the join of nothing
can stand anywhere. -/
theorem joined_eq_join_reports :
    (∀ members, (group members).joined = Report.join (group members).reports) ∧
    (∀ a b c, Report.join [Report.join [a, b], c] = Report.join [a, Report.join [b, c]]) ∧
    ∀ before after, Report.join (before ++ Report.join [] :: after) = Report.join (before ++ after) := by
  refine ⟨?_, ?_, ?_⟩
  · intro members
    simpa [joined, reports] using join_joinedEach [] [] members
  · intro a b c
    calc Report.join [Report.join [a, b], c]
      _ = Report.join [a, b, c] := Report.join_append_join [] [a, b] [c]
      _ = Report.join [a, Report.join [b, c]] := (Report.join_append_join [a] [b, c] []).symm
  · exact fun before after => Report.join_append_join before [] after

end Grouping

end ScriptAudit
