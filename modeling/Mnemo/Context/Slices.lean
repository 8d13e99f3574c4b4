import Mnemo.Context.Tiered
import Mnemo.Memory.Model

/-!
# Slices of texts

Previews and first sentences are cut at byte offsets.  Such a cut panics in the middle of a
character, so whether a context can be built depends on the texts.
-/

namespace Mnemo
namespace Context

open Memory (Episode MessageRole)

/-! ## Previews -/

/-- The first bytes of a content with an ellipsis, or all of a short one; `none` is a panic. -/
def preview (limit : Nat) (content : String) : Option String :=
  if limit < Text.byteLength content then (sliceTo content limit).map (· ++ "...")
  else some content

/-- The name of a role. -/
def roleName : MessageRole → String
  | .user => "user"
  | .assistant => "assistant"
  | .system => "system"
  | .tool => "tool"

/-- What a context shows of an episode. -/
def episodeSummary (episode : Episode) : Option EpisodeSummary :=
  (preview 200 episode.content).map fun preview =>
    { role := episode.role.map roleName
      preview
      createdAt := episode.createdAt }

/-- Whether an episode that was found is for the requested agent and not after the given time. -/
def considered (agentId : Option String) (temporalFilter : Option DateTime) (episode : Episode) :
    Bool :=
  agentId.all (fun requested => decide (episode.agentId = some requested)) &&
    temporalFilter.all fun limit => decide (episode.createdAt ≤ limit)

/-- The episodes of a context, from those that were found. -/
def contextEpisodes (agentId : Option String) (temporalFilter : Option DateTime) :
    List Episode → Option (List EpisodeSummary)
  | [] => some []
  | episode :: episodes =>
      if considered agentId temporalFilter episode then do
        let summary ← episodeSummary episode
        let summaries ← contextEpisodes agentId temporalFilter episodes
        return summary :: summaries
      else contextEpisodes agentId temporalFilter episodes

/-! ## The fallback to recent episodes -/

/-- Replace line breaks by blanks. -/
def replaceLineBreaks (text : String) : String :=
  String.ofList (text.toList.map fun character => if character = '\n' then ' ' else character)

/-- The line for a recent episode. -/
def snippetLine (episode : Episode) : Option String :=
  (preview 180 episode.content).map fun content =>
    "- [" ++ (episode.role.map roleName).getD "event" ++ "] " ++ replaceLineBreaks content

/-- The lines for recent episodes while they fit. -/
def addSnippets (maxTokens : Nat) : Nat → List Episode → Option (List String)
  | _, [] => some []
  | running, episode :: episodes => do
      let line ← snippetLine episode
      let total ← checkedAdd running (estimateTokens line)
      if maxTokens < total then return []
      else
        let lines ← addSnippets maxTokens total episodes
        return line :: lines

/-- The line before the recent episodes. -/
def snippetHeader : String :=
  "Recent conversation snippets (extraction may still be processing):"

/-- Attach recent episodes to a context without text. -/
def maybeAttachRecentEpisodeFallback (maxTokens : Nat) (episodes : List Episode)
    (block : ContextBlock) : Option ContextBlock :=
  if !(Text.trim block.context).isEmpty then some block
  else if episodes.isEmpty then some block
  else do
    let lines ← addSnippets maxTokens (estimateTokens snippetHeader) episodes
    if lines.isEmpty then return block
    else
      let context := joinParts (snippetHeader :: lines)
      let block := { block with context, tokenCount := estimateTokens context }
      if block.episodes.isEmpty then
        let summaries ← episodes.mapM episodeSummary
        return { block with episodes := summaries }
      else return block

/-! ## Cuts that succeed -/

/-- A text that is short enough or has a character that ends at the limit. -/
def Cuttable (limit : Nat) (text : String) : Prop :=
  Text.byteLength text ≤ limit ∨ ByteSlice.IsBoundary text.toList limit

instance (limit : Nat) (text : String) : Decidable (Cuttable limit text) :=
  inferInstanceAs (Decidable (_ ∨ _))

theorem isSome_sliceTo_iff {text : String} {offset : Nat} :
    (sliceTo text offset).isSome = true ↔ ByteSlice.IsBoundary text.toList offset := by
  rw [sliceTo, Option.isSome_map, ByteSlice.takeBytes_isSome_iff]

theorem isSome_preview_iff {limit : Nat} {content : String} :
    (preview limit content).isSome = true ↔ Cuttable limit content := by
  rw [preview, Cuttable]
  split
  next long => rw [Option.isSome_map, isSome_sliceTo_iff, or_iff_right (Nat.not_le.mpr long)]
  next short => simp [Nat.not_lt.mp short]

theorem isSome_episodeSummary_iff {episode : Episode} :
    (episodeSummary episode).isSome = true ↔ Cuttable 200 episode.content := by
  rw [episodeSummary, Option.isSome_map, isSome_preview_iff]

theorem isSome_contextEpisodes_iff {agentId : Option String} {temporalFilter : Option DateTime}
    {episodes : List Episode} :
    (contextEpisodes agentId temporalFilter episodes).isSome = true ↔
      ∀ episode ∈ episodes, considered agentId temporalFilter episode = true →
        Cuttable 200 episode.content := by
  induction episodes with
  | nil => simp [contextEpisodes]
  | cons episode episodes ih =>
    rw [contextEpisodes, List.forall_mem_cons, ← ih, ← isSome_episodeSummary_iff]
    cases considered agentId temporalFilter episode with
    | false => simp
    | true =>
      cases episodeSummary episode <;>
        cases contextEpisodes agentId temporalFilter episodes <;> simp

/-! ## First sentences -/

/-- The first sentence of a text, up to the sign that ends it. -/
def sentence (text : String) : String :=
  (sliceTo text (((ByteSlice.findByte endsSentence text.toList).map (· + 1)).getD
    (Text.byteLength text))).getD text

theorem sliceTo_sentence (text : String) :
    sliceTo text (((ByteSlice.findByte endsSentence text.toList).map (· + 1)).getD
      (Text.byteLength text)) = some (sentence text) := by
  have cut : (sliceTo text (((ByteSlice.findByte endsSentence text.toList).map (· + 1)).getD
      (Text.byteLength text))).isSome = true := by
    rw [isSome_sliceTo_iff]
    cases found : ByteSlice.findByte endsSentence text.toList with
    | none =>
      rw [Option.map_none, Option.getD_none, Text.byteLength, ByteSlice.utf8ByteSize_eq]
      exact ByteSlice.isBoundary_bytes _
    | some offset =>
      refine ByteSlice.isBoundary_findByte_succ (fun character ends => ?_) found
      rw [endsSentence, Bool.or_eq_true, Bool.or_eq_true, beq_iff_eq, beq_iff_eq,
        beq_iff_eq] at ends
      rcases ends with (rfl | rfl) | rfl <;> rfl
  obtain ⟨sentence', sliced⟩ := Option.isSome_iff_exists.mp cut
  rw [sentence, sliced, Option.getD_some]

theorem isSome_firstSentence_iff {text : String} {maxTokens : Nat} :
    (firstSentence text maxTokens).isSome = true ↔
      maxTokens * 4 < 2 ^ 32 ∧ Cuttable (maxTokens * 4) (sentence text) := by
  rw [firstSentence, sliceTo_sentence, Option.bind_eq_bind, Option.bind_some, checkedMul]
  split
  next fits =>
    rw [Option.bind_eq_bind, Option.bind_some, and_iff_right fits, Cuttable]
    split
    next long =>
      rw [Nat.min_eq_left (Nat.le_of_lt long), or_iff_right (Nat.not_le.mpr long),
        ← isSome_sliceTo_iff]
      cases sliceTo (sentence text) (maxTokens * 4) <;> rfl
    next short => simp [Nat.not_lt.mp short]
  next overflows =>
    exact ⟨(fun returns => nomatch returns), fun cuttable => absurd cuttable.1 overflows⟩

/-! ## The fallback -/

theorem isSome_snippetLine_iff {episode : Episode} :
    (snippetLine episode).isSome = true ↔ Cuttable 180 episode.content := by
  rw [snippetLine, Option.isSome_map, isSome_preview_iff]

theorem isSome_mapM_episodeSummary_iff {episodes : List Episode} :
    (episodes.mapM episodeSummary).isSome = true ↔
      ∀ episode ∈ episodes, Cuttable 200 episode.content := by
  induction episodes with
  | nil => simp
  | cons episode episodes ih =>
    rw [List.mapM_cons, List.forall_mem_cons, ← ih, ← isSome_episodeSummary_iff]
    cases episodeSummary episode <;> cases episodes.mapM episodeSummary <;> simp

/-- The tokens of some lines. -/
def lineTokens (lines : List String) : Nat := (lines.map estimateTokens).sum

/-- Episodes whose lines all fit behind what is counted so far. -/
def Fit (maxTokens running : Nat) (episodes : List Episode) : Prop :=
  ∃ lines, episodes.mapM snippetLine = some lines ∧
    (episodes = [] ∨ running + lineTokens lines ≤ maxTokens)

/-- The episodes that the fallback comes to can be cut, and their tokens counted. -/
def SnippetsCuttable (maxTokens running : Nat) (episodes : List Episode) : Prop :=
  ∀ front episode back, episodes = front ++ episode :: back → Fit maxTokens running front →
    Cuttable 180 episode.content ∧ ∀ lines, (front ++ [episode]).mapM snippetLine = some lines →
      running + lineTokens lines < 2 ^ 32

theorem mapM_cons_eq_some_iff {episode : Episode} {episodes : List Episode} {lines : List String} :
    (episode :: episodes).mapM snippetLine = some lines ↔
      ∃ line rest, snippetLine episode = some line ∧ episodes.mapM snippetLine = some rest ∧
        lines = line :: rest := by
  rw [List.mapM_cons]
  cases snippetLine episode <;> cases episodes.mapM snippetLine <;> simp [eq_comm]

/-- After a line that fits, the others are added to a greater count. -/
theorem snippetsCuttable_cons {maxTokens running : Nat} {episode : Episode}
    {episodes : List Episode} {line : String} (written : snippetLine episode = some line) :
    SnippetsCuttable maxTokens running (episode :: episodes) ↔
      running + estimateTokens line < 2 ^ 32 ∧
        (running + estimateTokens line ≤ maxTokens →
          SnippetsCuttable maxTokens (running + estimateTokens line) episodes) := by
  have cons {front : List Episode} {lines : List String}
      (fronts : front.mapM snippetLine = some lines) :
      (episode :: front).mapM snippetLine = some (line :: lines) :=
    mapM_cons_eq_some_iff.mpr ⟨line, lines, written, fronts, rfl⟩
  have uncons {front : List Episode} {lines : List String}
      (fronts : (episode :: front).mapM snippetLine = some lines) :
      ∃ rest, front.mapM snippetLine = some rest ∧ lines = line :: rest := by
    obtain ⟨line', rest, same, rests, rfl⟩ := mapM_cons_eq_some_iff.mp fronts
    obtain rfl := Option.some.inj (written.symm.trans same)
    exact ⟨rest, rests, rfl⟩
  have sum (lines : List String) : running + lineTokens (line :: lines) =
      running + estimateTokens line + lineTokens lines := by
    rw [lineTokens, List.map_cons, List.sum_cons, ← Nat.add_assoc]
    rfl
  constructor
  · intro cuttable
    refine ⟨?_, fun inside => ?_⟩
    · have first := (cuttable [] episode episodes rfl ⟨[], rfl, .inl rfl⟩).2 [line] (cons rfl)
      rwa [sum] at first
    · rintro front other back rfl ⟨lines, fronts, fits⟩
      have total : running + lineTokens (line :: lines) ≤ maxTokens := by
        rw [sum]
        rcases fits with rfl | fits
        · obtain rfl := Option.some.inj fronts
          exact inside
        · exact fits
      obtain ⟨cut, counted⟩ := cuttable (episode :: front) other back rfl
        ⟨line :: lines, cons fronts, .inr total⟩
      refine ⟨cut, fun others found => ?_⟩
      have more := counted (line :: others) (cons found)
      rwa [sum] at more
  · rintro ⟨first, rest⟩ front other back same ⟨lines, fronts, fits⟩
    cases front with
    | nil =>
      obtain ⟨rfl, rfl⟩ := List.cons.inj same
      refine ⟨isSome_snippetLine_iff.mp (by rw [written]; rfl), fun lines found => ?_⟩
      obtain ⟨others, empty, rfl⟩ := uncons found
      obtain rfl := Option.some.inj empty
      rw [sum]
      exact first
    | cons head front =>
      obtain ⟨rfl, rfl⟩ := List.cons.inj same
      obtain ⟨others, behind, rfl⟩ := uncons fronts
      have fits := fits.resolve_left (List.cons_ne_nil _ _)
      rw [sum] at fits
      obtain ⟨cut, counted⟩ := rest (Nat.le_trans (Nat.le_add_right _ _) fits) front other back
        rfl ⟨others, behind, .inr fits⟩
      refine ⟨cut, fun lines found => ?_⟩
      obtain ⟨others', rests, rfl⟩ := uncons found
      rw [sum]
      exact counted others' rests

theorem isSome_addSnippets_iff {maxTokens running : Nat} {episodes : List Episode} :
    (addSnippets maxTokens running episodes).isSome = true ↔
      SnippetsCuttable maxTokens running episodes := by
  induction episodes generalizing running with
  | nil =>
    refine ⟨fun _ front episode back same => ?_, fun _ => rfl⟩
    cases (List.append_eq_nil_iff.mp same.symm).2
  | cons episode episodes ih =>
    rw [addSnippets]
    cases written : snippetLine episode with
    | none =>
      refine ⟨(fun returns => by cases returns), fun cuttable => ?_⟩
      have cut := (cuttable [] episode episodes rfl ⟨[], rfl, .inl rfl⟩).1
      rw [← isSome_snippetLine_iff, written] at cut
      cases cut
    | some line =>
      rw [snippetsCuttable_cons written, Option.bind_eq_bind, Option.bind_some, checkedAdd]
      split
      next counted =>
        rw [and_iff_right counted, Option.bind_eq_bind, Option.bind_some]
        split
        next exceeds =>
          exact ⟨fun _ fits => absurd fits (Nat.not_le.mpr exceeds), fun _ => rfl⟩
        next fits =>
          rw [imp_iff_right (Nat.not_lt.mp fits), ← ih]
          cases addSnippets maxTokens (running + estimateTokens line) episodes <;> rfl
      next overflows =>
        exact ⟨(fun returns => by cases returns), fun cuttable => absurd cuttable.1 overflows⟩

theorem addSnippets_eq_nil_iff {maxTokens running : Nat} {episodes : List Episode}
    {lines : List String} (added : addSnippets maxTokens running episodes = some lines) :
    lines = [] ↔ ∀ first rest, episodes = first :: rest → ¬ Fit maxTokens running [first] := by
  cases episodes with
  | nil =>
    obtain rfl := Option.some.inj added
    exact ⟨(fun _ _ _ same => nomatch same), fun _ => rfl⟩
  | cons episode episodes =>
    rw [addSnippets] at added
    obtain ⟨line, written, added⟩ := Option.bind_eq_some_iff.mp added
    obtain ⟨total, sum, added⟩ := Option.bind_eq_some_iff.mp added
    obtain ⟨-, rfl⟩ := checkedAdd_eq_some_iff.mp sum
    have fit_iff : Fit maxTokens running [episode] ↔
        running + estimateTokens line ≤ maxTokens := by
      simp [Fit, written, lineTokens]
    split at added
    next exceeds =>
      obtain rfl := Option.some.inj added
      refine ⟨fun _ first rest same fits => ?_, fun _ => rfl⟩
      obtain ⟨rfl, rfl⟩ := List.cons.inj same
      exact absurd (fit_iff.mp fits) (Nat.not_le.mpr exceeds)
    next fits =>
      obtain ⟨others, -, added⟩ := Option.bind_eq_some_iff.mp added
      obtain rfl := Option.some.inj added
      refine ⟨(fun empty => nomatch empty), fun none' => ?_⟩
      exact absurd (fit_iff.mpr (Nat.not_lt.mp fits)) (none' episode episodes rfl)

/-- The fallback returns exactly when the episodes it comes to can be cut, and all of them can be
cut once more where they are attached. -/
theorem isSome_fallback_iff {maxTokens : Nat} {episodes : List Episode} {block : ContextBlock} :
    (maybeAttachRecentEpisodeFallback maxTokens episodes block).isSome = true ↔
      ((Text.trim block.context).isEmpty = true →
        SnippetsCuttable maxTokens (estimateTokens snippetHeader) episodes ∧
        (block.episodes = [] →
          (∃ first rest, episodes = first :: rest ∧
            Fit maxTokens (estimateTokens snippetHeader) [first]) →
          ∀ episode ∈ episodes, Cuttable 200 episode.content)) := by
  rw [maybeAttachRecentEpisodeFallback]
  cases (Text.trim block.context).isEmpty with
  | false => simp
  | true =>
    rw [imp_iff_right rfl, ← isSome_addSnippets_iff, Bool.not_true, if_neg Bool.false_ne_true]
    cases episodes with
    | nil => simp [addSnippets]
    | cons episode rest =>
      rw [List.isEmpty_cons, if_neg Bool.false_ne_true]
      cases added : addSnippets maxTokens (estimateTokens snippetHeader) (episode :: rest) with
      | none => simp
      | some lines =>
        rw [Option.bind_eq_bind, Option.bind_some, ← isSome_mapM_episodeSummary_iff]
        have empty_iff := addSnippets_eq_nil_iff added
        cases lines with
        | nil =>
          refine ⟨fun _ => ⟨rfl, ?_⟩, fun _ => rfl⟩
          rintro - ⟨first, others, same, fits⟩
          exact absurd fits (empty_iff.mp rfl first others same)
        | cons line lines =>
          have fits : ∃ first others, episode :: rest = first :: others ∧
              Fit maxTokens (estimateTokens snippetHeader) [first] := by
            by_contra none'
            refine nomatch empty_iff.mpr fun first others same fits => ?_
            exact none' ⟨first, others, same, fits⟩
          rw [List.isEmpty_cons, if_neg Bool.false_ne_true]
          cases shown : block.episodes with
          | nil =>
            simp only [List.isEmpty_nil, if_true, Option.isSome_some, true_and,
              imp_iff_right fits]
            cases (episode :: rest).mapM episodeSummary <;> simp
          | cons first others => simp

/-! ## Every slice -/

/-- What is needed of the texts for no slice to panic: previews of 200 and 180 bytes and first
sentences must be cut where a character ends. -/
theorem slices_return_iff (agentId : Option String) (temporalFilter : Option DateTime)
    (found : List Episode) (text : String) (budget maxTokens : Nat) (episodes : List Episode)
    (block : ContextBlock) :
    ((contextEpisodes agentId temporalFilter found).isSome = true ↔
      ∀ episode ∈ found, considered agentId temporalFilter episode = true →
        Cuttable 200 episode.content) ∧
    ((firstSentence text budget).isSome = true ↔
      budget * 4 < 2 ^ 32 ∧ Cuttable (budget * 4) (sentence text)) ∧
    ((maybeAttachRecentEpisodeFallback maxTokens episodes block).isSome = true ↔
      ((Text.trim block.context).isEmpty = true →
        SnippetsCuttable maxTokens (estimateTokens snippetHeader) episodes ∧
        (block.episodes = [] →
          (∃ first rest, episodes = first :: rest ∧
            Fit maxTokens (estimateTokens snippetHeader) [first]) →
          ∀ episode ∈ episodes, Cuttable 200 episode.content))) :=
  ⟨isSome_contextEpisodes_iff, isSome_firstSentence_iff, isSome_fallback_iff⟩

/-- An episode with an accented letter across the limits of 180 and 200 bytes. -/
def accentedEpisode : Episode :=
  { id := 0
    sessionId := 0
    userId := 0
    agentId := none
    content := String.ofList
      (List.replicate 179 'a' ++ 'é' :: List.replicate 18 'a' ++ ['é'])
    role := none
    createdAt := 0
    processingStatus := .pending
    processingError := none
    entityIds := []
    edgeIds := []
    retryCount := 0 }

/-- Accented letters make each of the slices panic. -/
theorem accented_slices_panic :
    contextEpisodes none none [accentedEpisode] = none ∧
    firstSentence "aéé" 1 = none ∧
    (maybeAttachRecentEpisodeFallback 500 [accentedEpisode]
      ⟨"", 0, [], [], []⟩).isSome = false := by
  refine ⟨?_, ?_, ?_⟩ <;> decide +kernel

end Context
end Mnemo
