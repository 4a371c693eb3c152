import LinkDump.Proofs.SourceOrder
import LinkDump.Report.Stats

/-! # Counts
The one pass that counts links gives what it says it counts: how many links there are, how many of
them have a note, an empty target or a target of several lines, and how many different sources. It
fails where the listing of distinct sources fails, and its last count is the length of that list. -/

namespace LinkDump

/-- Sources are put one by one into a set that has some already: its size is that of their union. -/
theorem size_foldl_insert {seen : Std.HashSet Text} {known : Finset Text}
    (hmem : ∀ source, source ∈ seen ↔ source ∈ known) (hsize : seen.size = known.card)
    (links : List Link) :
    (links.foldl (fun seen link => seen.insert link.source) seen).size =
      (known ∪ (links.map Link.source).toFinset).card := by
  induction links generalizing seen known with
  | nil => simp [hsize]
  | cons link links ih =>
    have hmem' : ∀ source,
        source ∈ seen.insert link.source ↔ source ∈ insert link.source known := by
      intro source
      rw [Std.HashSet.mem_insert, hmem, Finset.mem_insert, beq_iff_eq, eq_comm]
    have hsize' : (seen.insert link.source).size = (insert link.source known).card := by
      rw [Std.HashSet.size_insert, hsize]
      split
      next h => rw [Finset.insert_eq_self.mpr ((hmem _).mp h)]
      next h => rw [Finset.card_insert_of_notMem (mt (hmem _).mpr h)]
    rw [List.foldl_cons, ih hmem' hsize', List.map_cons, List.toFinset_cons, Finset.insert_union,
      Finset.union_insert]

namespace Stats

/-- The counts of some links below a header of `metaFields` fields. -/
def ofLinks (metaFields : Nat) (links : List Link) : Stats where
  metaFields := metaFields
  links := links.length
  annotated := links.countP Link.hasNote
  emptyTargets := links.countP fun link => link.target.isEmpty
  multilineTargets := links.countP Link.isMultiline
  distinctSources := (LinkDump.distinctSources links).length

/-- What is added to the counts are those of the links before the first error; with an error there
are no counts. -/
theorem addItems_eq {ε : Type} (stats : Stats) (seen : Std.HashSet Text)
    (items : List (Except ε Link)) :
    addItems stats seen items = match cutAtError items with
      | (links, none) => .ok {
          metaFields := stats.metaFields
          links := stats.links + links.length
          annotated := stats.annotated + links.countP Link.hasNote
          emptyTargets := stats.emptyTargets + links.countP fun link => link.target.isEmpty
          multilineTargets := stats.multilineTargets + links.countP Link.isMultiline
          distinctSources := (links.foldl (fun seen link => seen.insert link.source) seen).size }
      | (_, some e) => .error e := by
  have hcount : ∀ (n m : Nat) (b : Bool), n + b.toNat + m = n + (m + if b then 1 else 0) := by
    intro n m b
    rw [Nat.add_assoc, Nat.add_comm b.toNat]
    cases b <;> rfl
  induction items generalizing stats seen with
  | nil => rfl
  | cons item items ih =>
    cases item with
    | error e => rfl
    | ok link =>
      rw [addItems, ih, cutAtError]
      rcases cutAtError items with ⟨links, _ | e⟩
      · simp only [add, List.length_cons, List.countP_cons, List.foldl_cons, hcount,
          Nat.add_assoc, Nat.add_comm 1]
      · rfl

/-- Counting fails with the first error, and otherwise gives the counts of all links. -/
theorem ofItems_eq {ε : Type} (metaFields : Nat) (items : List (Except ε Link)) :
    ofItems metaFields items = match cutAtError items with
      | (links, none) => .ok (ofLinks metaFields links)
      | (_, some e) => .error e := by
  rw [ofItems, addItems_eq]
  rcases cutAtError items with ⟨links, _ | e⟩
  · have hmem : ∀ source, source ∈ (∅ : Std.HashSet Text) ↔ source ∈ (∅ : Finset Text) := by
      simp
    have hsize := size_foldl_insert hmem Std.HashSet.size_empty links
    rw [Finset.empty_union, ← length_distinctSources] at hsize
    simp only [hsize, Nat.zero_add]
    rfl
  · rfl

section Items

variable {ε : Type} {metaFields : Nat}

/-- Items that are all links are counted. -/
theorem ofItems_map_ok (metaFields : Nat) (links : List Link) :
    ofItems metaFields (links.map .ok : List (Except ε Link)) = .ok (ofLinks metaFields links) := by
  rw [ofItems_eq, cutAtError_map_ok]

/-- The first error is the result, whatever follows it. -/
theorem ofItems_append_error (metaFields : Nat) (links : List Link) (e : ε)
    (rest : List (Except ε Link)) :
    ofItems metaFields (links.map .ok ++ .error e :: rest) = .error e := by
  rw [ofItems_eq, cutAtError_map_ok_append_error]

/-- Counting fails exactly where listing the sources fails, and with the same error. -/
theorem ofItems_eq_error_iff {items : List (Except ε Link)} {e : ε} :
    ofItems metaFields items = .error e ↔ distinctSourcesOfItems items = .error e := by
  rw [ofItems_eq, distinctSourcesOfItems]
  rcases cutAtError items with ⟨links, _ | e'⟩
  · constructor <;> intro h <;> cases h
  · rw [Except.error.injEq, Except.error.injEq]

end Items

/-! ## The counts of some links -/

/-- Links are counted by what their note and their target are. -/
theorem ofLinks_eq (metaFields : Nat) (links : List Link) : ofLinks metaFields links = {
    metaFields
    links := links.length
    annotated := links.countP (·.note ≠ [])
    emptyTargets := links.countP (·.target = [])
    multilineTargets := links.countP ('\n' ∈ ·.target)
    distinctSources := (LinkDump.distinctSources links).length } := by
  have hnote : Link.hasNote = fun link => decide (link.note ≠ []) := by
    funext link
    rw [Link.hasNote]
    cases link.note <;> rfl
  have hempty : (fun link : Link => link.target.isEmpty) = fun link => decide (link.target = []) := by
    funext link
    cases link.target <;> rfl
  have hlines : Link.isMultiline = fun link => decide ('\n' ∈ link.target) := by
    funext link
    rw [Link.isMultiline, List.contains_eq_mem]
  calc ofLinks metaFields links
      = ⟨metaFields, links.length, links.countP Link.hasNote,
          links.countP fun link => link.target.isEmpty, links.countP Link.isMultiline,
          (LinkDump.distinctSources links).length⟩ := rfl
    _ = _ := by rw [hnote, hempty, hlines]

section Bounds

variable (metaFields : Nat) (links : List Link)

/-- No more links have a note than there are links. -/
theorem annotated_le_links :
    (ofLinks metaFields links).annotated ≤ (ofLinks metaFields links).links :=
  List.countP_le_length

/-- No target is empty and of several lines. -/
theorem emptyTargets_add_multilineTargets_le_links :
    (ofLinks metaFields links).emptyTargets + (ofLinks metaFields links).multilineTargets ≤
      (ofLinks metaFields links).links := by
  have hapart : links.countP Link.isMultiline ≤
      links.countP fun link => decide ¬(link.target.isEmpty = true) := by
    apply List.countP_mono_left
    intro link _ hlines
    rw [decide_eq_true_eq, List.isEmpty_iff]
    intro hempty
    rw [Link.isMultiline, hempty] at hlines
    cases hlines
  calc links.countP (fun link => link.target.isEmpty) + links.countP Link.isMultiline
      ≤ links.countP (fun link => link.target.isEmpty) +
          links.countP fun link => decide ¬(link.target.isEmpty = true) :=
        Nat.add_le_add_left hapart _
    _ = links.length :=
        (List.length_eq_countP_add_countP fun link : Link => link.target.isEmpty).symm

/-- There are no more distinct sources than links. -/
theorem distinctSources_le_links :
    (ofLinks metaFields links).distinctSources ≤ (ofLinks metaFields links).links := by
  calc (LinkDump.distinctSources links).length
      = (links.map Link.source).toFinset.card := length_distinctSources links
    _ ≤ (links.map Link.source).length := List.toFinset_card_le _
    _ = links.length := List.length_map Link.source

/-- Where there is a link, there is a source. -/
theorem links_eq_zero_of_distinctSources_eq_zero
    (h : (ofLinks metaFields links).distinctSources = 0) : (ofLinks metaFields links).links = 0 := by
  have hnone : LinkDump.distinctSources links = [] := List.length_eq_zero_iff.mp h
  apply List.length_eq_zero_iff.mpr
  rw [List.eq_nil_iff_forall_not_mem]
  intro link hmem
  have hsource := mem_distinctSources.mpr (List.mem_map_of_mem (f := Link.source) hmem)
  rw [hnone] at hsource
  cases hsource

end Bounds

/-- The order of the links makes no difference. -/
theorem ofLinks_of_perm (metaFields : Nat) {links links' : List Link} (h : links.Perm links') :
    ofLinks metaFields links = ofLinks metaFields links' := by
  have hsources : LinkDump.distinctSources links = LinkDump.distinctSources links' := by
    rw [distinctSources_eq_iff]
    intro source
    simp only [h.mem_iff]
  rw [ofLinks_eq, ofLinks_eq, h.length_eq, h.countP_eq, h.countP_eq, h.countP_eq, hsources]

end Stats

/-- The counts of any header and any items. Counting fails exactly if listing the distinct sources
fails, with the same error, which is the first one. Items that are all links are counted: how many
there are, how many of them have a note that is not empty, an empty target, or a newline in their
target, and how many distinct sources are listed. So no more links have a note than there are, no
more have an empty target or one of several lines, and there are no more sources; there is no source
only where there is no link; the order of the links makes no difference; and the counts of two
sequences of links, one behind the other, are the sums of theirs, but for the sources. -/
theorem Stats.counts_of_items {ε : Type} (metaFields : Nat) :
    (∀ (items : List (Except ε Link)) (e : ε),
      ofItems metaFields items = .error e ↔ distinctSourcesOfItems items = .error e) ∧
    (∀ (links : List Link) (e : ε) (rest : List (Except ε Link)),
      ofItems metaFields (links.map .ok ++ .error e :: rest) = .error e) ∧
    (∀ links : List Link, ∃ sources,
      distinctSourcesOfItems (links.map .ok : List (Except ε Link)) = .ok sources ∧
      ofItems metaFields (links.map .ok : List (Except ε Link)) = .ok {
        metaFields
        links := links.length
        annotated := links.countP (·.note ≠ [])
        emptyTargets := links.countP (·.target = [])
        multilineTargets := links.countP ('\n' ∈ ·.target)
        distinctSources := sources.length }) ∧
    (∀ (links : List Link) (stats : Stats),
      ofItems metaFields (links.map .ok : List (Except ε Link)) = .ok stats →
      stats.annotated ≤ stats.links ∧
      stats.emptyTargets + stats.multilineTargets ≤ stats.links ∧
      stats.distinctSources ≤ stats.links ∧
      (stats.distinctSources = 0 → stats.links = 0)) ∧
    (∀ links links' : List Link, links.Perm links' →
      ofItems metaFields (links.map .ok : List (Except ε Link)) =
        ofItems metaFields (links'.map .ok)) ∧
    ∀ (links links' : List Link) (stats stats' total : Stats),
      ofItems metaFields (links.map .ok : List (Except ε Link)) = .ok stats →
      ofItems metaFields (links'.map .ok : List (Except ε Link)) = .ok stats' →
      ofItems metaFields (links.map .ok ++ links'.map .ok : List (Except ε Link)) = .ok total →
      total.links = stats.links + stats'.links ∧
      total.annotated = stats.annotated + stats'.annotated ∧
      total.emptyTargets = stats.emptyTargets + stats'.emptyTargets ∧
      total.multilineTargets = stats.multilineTargets + stats'.multilineTargets := by
  refine ⟨fun _ _ => ofItems_eq_error_iff, ofItems_append_error metaFields, ?_, ?_, ?_, ?_⟩
  · intro links
    exact ⟨_, distinctSourcesOfItems_map_ok links, by rw [ofItems_map_ok, ofLinks_eq]⟩
  · intro links stats hstats
    obtain rfl : ofLinks metaFields links = stats := by
      rwa [ofItems_map_ok, Except.ok.injEq] at hstats
    exact ⟨annotated_le_links metaFields links,
      emptyTargets_add_multilineTargets_le_links metaFields links,
      distinctSources_le_links metaFields links,
      links_eq_zero_of_distinctSources_eq_zero metaFields links⟩
  · intro links links' hperm
    rw [ofItems_map_ok, ofItems_map_ok, ofLinks_of_perm metaFields hperm]
  · intro links links' stats stats' total hstats hstats' htotal
    rw [← List.map_append, ofItems_map_ok, Except.ok.injEq] at htotal
    rw [ofItems_map_ok, Except.ok.injEq] at hstats hstats'
    rw [← htotal, ← hstats, ← hstats']
    exact ⟨List.length_append, List.countP_append, List.countP_append, List.countP_append⟩

/-- Two links with one source, one of several lines and one with a note and an empty target, counted
one behind the other and the other way round. -/
theorem Stats.counts_of_two_links :
    let front : List Link := [⟨['é'], ['x', '\n'], []⟩]
    let back : List Link := [⟨['é'], [], ['n']⟩]
    (∃ total, ofItems 1 (front.map .ok ++ back.map .ok : List (Except Unit Link)) = .ok total ∧
      total.links = 1 + 1 ∧ total.annotated = 0 + 1 ∧ total.emptyTargets = 0 + 1 ∧
      total.multilineTargets = 1 + 0 ∧ total.distinctSources ≤ total.links) ∧
    ofItems 1 ((front ++ back).map .ok : List (Except Unit Link)) =
      ofItems 1 ((back ++ front).map .ok) := by
  intro front back
  obtain ⟨-, -, hcounts, hbounds, horder, hsums⟩ := @counts_of_items Unit 1
  obtain ⟨_, -, hfront⟩ := hcounts front
  obtain ⟨_, -, hback⟩ := hcounts back
  obtain ⟨_, -, htotal⟩ := hcounts (front ++ back)
  have hle := (hbounds _ _ htotal).2.2.1
  rw [List.map_append] at htotal
  obtain ⟨hlinks, hannotated, hempty, hlines⟩ := hsums front back _ _ _ hfront hback htotal
  exact ⟨⟨_, htotal, hlinks, hannotated, hempty, hlines, hle⟩,
    horder _ _ List.perm_append_comm⟩

end LinkDump
