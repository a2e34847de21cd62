import Mathlib.Data.List.Forall2
import LosslessSyntax.Proofs.Parse.Slicing
import LosslessSyntax.Tree.Walk

/-! Events that spell tokens. Every significant token is one lexeme, led by trivia that stand in front of it;
trivia that lead no lexeme stand for themselves, and a missing lexeme stands for no token. So nothing that
events spell is lost, doubled or hidden, whatever the tree around them looks like. -/

namespace LosslessSyntax

namespace Event

/-- Whether the events, in order, stand for all of the tokens, in order. -/
inductive Spells : List Event → List Token → Prop where
  | nil : Spells [] []
  | missing {es : List Event} {ts : List Token} (h : Spells es ts) : Spells (.lexeme .missing :: es) ts
  | lexeme {leading : List Token} {t : Token} {es : List Event} {ts : List Token}
      (hleading : ∀ u ∈ leading, u.isTrivia = true) (ht : t.isTrivia = false) (h : Spells es ts) :
      Spells (.lexeme ⟨Token.restore leading, t.text⟩ :: es) (leading ++ t :: ts)
  | trivia {run : List Token} {es : List Event} {ts : List Token} (hrun : ∀ u ∈ run, u.isTrivia = true)
      (h : Spells es ts) : Spells (.trivia (Token.restore run) :: es) (run ++ ts)

/-- The lexemes met, without the missing ones. -/
def lexemes (es : List Event) : List Lexeme := (es.filterMap lexeme?).filter (!·.isMissing)

namespace Spells

variable {es fs : List Event} {ts us : List Token}

theorem append (h : Spells es ts) (h' : Spells fs us) : Spells (es ++ fs) (ts ++ us) := by
  induction h with
  | nil => exact h'
  | missing _ ih => exact .missing ih
  | lexeme hleading ht _ ih =>
      rw [List.append_assoc]
      exact .lexeme hleading ht ih
  | trivia hrun _ ih =>
      rw [List.append_assoc]
      exact .trivia hrun ih

theorem restore (h : Spells es ts) : es.flatMap text = Token.restore ts := by
  induction h with
  | nil => rfl
  | missing _ ih => exact ih
  | lexeme _ _ _ ih =>
      rw [List.flatMap_cons, ih, Token.restore_append, Token.restore_cons, ← List.append_assoc]
      rfl
  | trivia _ _ ih =>
      rw [List.flatMap_cons, ih, Token.restore_append]
      rfl

/-- No significant token is hidden between the lexemes: the text of trivia is that of trivia tokens. -/
theorem exists_run_of_trivia (h : Spells es ts) {text : Text} (ht : .trivia text ∈ es) :
    ∃ run, run <:+: ts ∧ (∀ u ∈ run, u.isTrivia = true) ∧ text = Token.restore run := by
  induction h with
  | nil => cases ht
  | missing _ ih =>
      rcases List.mem_cons.mp ht with ht | ht
      · cases ht
      · exact ih ht
  | @lexeme leading t es ts _ _ _ ih =>
      rcases List.mem_cons.mp ht with ht | ht
      · cases ht
      · obtain ⟨run, hrun, h⟩ := ih ht
        have hbehind : ts <:+: leading ++ t :: ts :=
          ((List.suffix_cons t ts).trans (List.suffix_append leading _)).isInfix
        exact ⟨run, hrun.trans hbehind, h⟩
  | @trivia front es ts hfront _ ih =>
      rcases List.mem_cons.mp ht with ht | ht
      · cases ht
        exact ⟨front, (List.prefix_append front ts).isInfix, hfront, rfl⟩
      · obtain ⟨run, hrun, h⟩ := ih ht
        exact ⟨run, hrun.trans (List.suffix_append front ts).isInfix, h⟩

end Spells

end Event

namespace Token

theorem isTrivia_triviaNodes {source : Text} {stop : Nat} {run : Option Nat} {ts : List Token} :
    ∀ n ∈ triviaNodes source stop run ts, n.isTrivia = true := by
  fun_induction triviaNodes source stop run ts with
  | case1 => exact List.forall_mem_nil _
  | case2 => exact List.forall_mem_singleton.mpr rfl
  | case3 t ts _ ih => exact List.forall_mem_cons.mpr ⟨rfl, ih⟩
  | case5 start t ts _ ih => exact List.forall_mem_cons.mpr ⟨rfl, List.forall_mem_cons.mpr ⟨rfl, ih⟩⟩
  | case4 _ _ _ ih | case6 _ _ _ _ ih => exact ih

theorem events_whitespace (run : Text) : (Node.whitespace run).events = [.trivia run] := by
  rw [Node.events_eq]
  rfl

theorem events_comment (text : Text) : (Node.comment text).events = [.trivia text] := by
  rw [Node.events_eq]
  rfl

theorem restore_singleton (t : Token) : restore [t] = t.text := List.append_nil _

/-- Trivia in front of nodes that spell trivia go into their first node or become a node. -/
theorem spells_afterBlanks {t : Token} (ht : t.isTrivia = true) {nodes : List Node} {ts : List Token}
    (h : Event.Spells (nodes.flatMap Node.events) ts) :
    Event.Spells ((afterBlanks t.text nodes).flatMap Node.events) (t :: ts) := by
  unfold afterBlanks
  split
  · next run nodes =>
      rw [List.flatMap_cons, events_whitespace] at h
      rw [List.flatMap_cons, events_whitespace]
      cases h with
      | @trivia run _ us hrun hrest =>
          exact @Event.Spells.trivia (t :: run) _ us (List.forall_mem_cons.mpr ⟨ht, hrun⟩) hrest
  · rw [List.flatMap_cons, events_whitespace, ← restore_singleton t]
    exact @Event.Spells.trivia [t] _ ts (List.forall_mem_singleton.mpr ht) h

theorem spells_joinedNodes {ts : List Token} (h : ∀ t ∈ ts, t.isTrivia = true) :
    Event.Spells ((joinedNodes ts).flatMap Node.events) ts := by
  induction ts with
  | nil => exact .nil
  | cons t ts ih =>
      obtain ⟨ht, hts⟩ := List.forall_mem_cons.mp h
      rw [joinedNodes]
      split
      · rw [List.flatMap_cons, events_comment, ← restore_singleton t]
        exact @Event.Spells.trivia [t] _ ts (List.forall_mem_singleton.mpr ht) (ih hts)
      · exact spells_afterBlanks ht (ih hts)

/-- The significant tokens, each with the trivia between it and the significant token before it. The trivia
in front of the first one begin with `pending`. -/
def clustersBehind (pending : List Token) : List Token → List (List Token × Token)
  | [] => []
  | t :: ts =>
    if t.isTrivia then clustersBehind (pending ++ [t]) ts else (pending, t) :: clustersBehind [] ts

/-- The significant tokens, each with the trivia between it and the significant token before it. -/
def clusters (ts : List Token) : List (List Token × Token) := clustersBehind [] ts

theorem clustersBehind_append {run : List Token} (hrun : ∀ u ∈ run, u.isTrivia = true)
    (pending ts : List Token) : clustersBehind pending (run ++ ts) = clustersBehind (pending ++ run) ts := by
  induction run generalizing pending with
  | nil => rw [List.nil_append, List.append_nil]
  | cons u run ih =>
      rw [List.cons_append, clustersBehind, if_pos (hrun u List.mem_cons_self),
        ih fun v hv => hrun v (List.mem_cons_of_mem _ hv), List.append_assoc]
      rfl

theorem map_snd_clustersBehind (pending ts : List Token) :
    (clustersBehind pending ts).map Prod.snd = ts.filter (!·.isTrivia) := by
  fun_induction clustersBehind pending ts with
  | case1 => rfl
  | case2 pending t ts ht ih => rw [ih, List.filter_cons_of_neg (by simp [ht])]
  | case3 pending t ts ht ih => rw [List.map_cons, ih, List.filter_cons_of_pos (by simpa using ht)]

/-- The clusters hold every significant token once, in order. -/
theorem map_snd_clusters (ts : List Token) : (clusters ts).map Prod.snd = ts.filter (!·.isTrivia) :=
  map_snd_clustersBehind [] ts

end Token

/-- Whether a lexeme stands for the significant token of a cluster, led by the last of the trivia before it. -/
def Lexeme.Fits (l : Lexeme) (cluster : List Token × Token) : Prop :=
  l.text = cluster.2.text ∧ ∃ tail, tail <:+ cluster.1 ∧ l.leading = Token.restore tail

theorem Lexeme.map_text_of_fits {ls : List Lexeme} {cs : List (List Token × Token)}
    (h : List.Forall₂ Fits ls cs) : ls.map Lexeme.text = (cs.map Prod.snd).map Token.text := by
  induction h with
  | nil => rfl
  | cons hfits _ ih =>
      rw [List.map_cons, hfits.1, ih]
      rfl

namespace Event.Spells

theorem forall₂_clustersBehind {es : List Event} {ts : List Token} (h : Spells es ts)
    (hts : ∀ t ∈ ts, t.text ≠ []) (pending : List Token) :
    List.Forall₂ Lexeme.Fits (lexemes es) (Token.clustersBehind pending ts) := by
  induction h generalizing pending with
  | nil => exact .nil
  | missing _ ih => exact ih hts pending
  | @lexeme leading t es ts hleading ht _ ih =>
      have htext : t.text ≠ [] := hts t (by simp)
      have hlexemes : lexemes (.lexeme ⟨Token.restore leading, t.text⟩ :: es) =
          ⟨Token.restore leading, t.text⟩ :: lexemes es := by
        simp [lexemes, lexeme?, Lexeme.isMissing, htext]
      rw [hlexemes, Token.clustersBehind_append hleading, Token.clustersBehind, if_neg (by simp [ht])]
      exact .cons ⟨rfl, leading, List.suffix_append .., rfl⟩ (ih (fun u hu => hts u (by simp [hu])) [])
  | trivia hrun _ ih =>
      rw [Token.clustersBehind_append hrun]
      exact ih (fun u hu => hts u (by simp [hu])) _

theorem forall₂_clusters {es : List Event} {ts : List Token} (h : Spells es ts)
    (hts : ∀ t ∈ ts, t.text ≠ []) : List.Forall₂ Lexeme.Fits (lexemes es) (Token.clusters ts) :=
  h.forall₂_clustersBehind hts []

end Event.Spells

end LosslessSyntax
