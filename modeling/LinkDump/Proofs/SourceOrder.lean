import LinkDump.Proofs.TextLines
import LinkDump.Report.Sources
import Std.Data.HashSet.Lemmas
import Mathlib.Data.Finset.Dedup
import Mathlib.Data.Finset.Card

/-! # The order of sources
Sources are ordered by their sizes, and byte by byte where these are the same. That is a total
order, so the distinct sources of some links are listed without repetition, each behind all that
come before it in the order. There is only one such listing, so it says which sources there are, and
neither the order of the links nor how often they are repeated can be told from it. -/

namespace LinkDump

instance : Std.TransCmp compareSources :=
  inferInstanceAs (Std.TransCmp (compareLex (compareOn Utf8.size) (compareOn Utf8.encode)))

/-- Different texts are different sources. -/
instance : Std.LawfulEqCmp compareSources where
  eq_of_compare {a b} h := by
    rw [compareSources, Ordering.then_eq_eq] at h
    have hbytes : Utf8.encode a = Utf8.encode b := Std.LawfulEqCmp.eq_of_compare h.2
    rw [← Utf8.decode_encode a, hbytes, Utf8.decode_encode]

/-- Bytes are compared by their lexicographic order. -/
theorem compare_bytes_eq_lt_iff {s t : Bytes} : compare s t = .lt ↔ s < t := by
  induction s generalizing t with
  | nil => cases t <;> simp
  | cons b s ih =>
    cases t with
    | nil => simp
    | cons d t =>
      rw [List.compare_cons_cons, Ordering.then_eq_lt, List.cons_lt_cons_iff, ih,
        Std.compare_eq_iff_eq, Std.compare_eq_lt]

/-- A shorter source comes first; of two of one size, the one with the smaller bytes. -/
theorem compareSources_eq_lt_iff {a b : Text} : compareSources a b = .lt ↔
    Utf8.size a < Utf8.size b ∨
      Utf8.size a = Utf8.size b ∧ Utf8.encode a < Utf8.encode b := by
  rw [compareSources, Ordering.then_eq_lt, compare_bytes_eq_lt_iff, Nat.compare_eq_lt,
    Nat.compare_eq_eq]

/-- A source that comes before another is a different one. -/
theorem ne_of_compareSources_eq_lt {a b : Text} (h : compareSources a b = .lt) : a ≠ b := by
  rintro rfl
  have hself : compareSources a a = .eq := Std.ReflCmp.compare_self
  rw [hself] at h
  cases h

/-- Of two different sources one comes before the other. -/
theorem compareSources_eq_lt {a b : Text} (hle : sourceLE a b) (hne : a ≠ b) :
    compareSources a b = .lt := by
  rw [sourceLE] at hle
  cases hcompare : compareSources a b with
  | lt => rfl
  | eq => exact absurd (Std.LawfulEqCmp.eq_of_compare hcompare) hne
  | gt =>
    rw [hcompare] at hle
    cases hle

/-- Of any two sources one may stand before the other. -/
theorem sourceLE_total (a b : Text) : (sourceLE a b || sourceLE b a) = true := by
  have hswap : compareSources b a = (compareSources a b).swap := Std.OrientedCmp.eq_swap
  rw [sourceLE, sourceLE, hswap]
  cases compareSources a b <;> rfl

/-! ## Leaving out repetitions -/

variable {links : List Link} {source : Text}

/-- Just those sources are met that had not been met before. -/
theorem mem_newSources {seen : Std.HashSet Text} :
    source ∈ newSources seen links ↔ source ∈ links.map Link.source ∧ source ∉ seen := by
  induction links generalizing seen with
  | nil => simp [newSources]
  | cons link links ih =>
    rw [newSources, List.map_cons, List.mem_cons]
    split
    next hseen =>
      rw [ih]
      constructor
      · exact fun ⟨hmem, hnew⟩ => ⟨.inr hmem, hnew⟩
      · rintro ⟨rfl | hmem, hnew⟩
        · exact absurd hseen hnew
        · exact ⟨hmem, hnew⟩
    next hunseen =>
      rw [List.mem_cons, ih, Std.HashSet.mem_insert, beq_iff_eq, not_or]
      constructor
      · rintro (rfl | ⟨hmem, -, hnew⟩)
        · exact ⟨.inl rfl, hunseen⟩
        · exact ⟨.inr hmem, hnew⟩
      · rintro ⟨rfl | hmem, hnew⟩
        · exact .inl rfl
        · exact or_iff_not_imp_left.mpr fun hne => ⟨hmem, Ne.symm hne, hnew⟩

/-- No source is met for the first time twice. -/
theorem nodup_newSources (seen : Std.HashSet Text) (links : List Link) :
    (newSources seen links).Nodup := by
  induction links generalizing seen with
  | nil => exact List.nodup_nil
  | cons link links ih =>
    rw [newSources]
    split
    · exact ih seen
    · refine List.nodup_cons.mpr ⟨fun hmem => ?_, ih _⟩
      exact (mem_newSources.mp hmem).2 Std.HashSet.mem_insert_self

/-! ## Distinct sources -/

/-- The sources of the links are listed, and no others. -/
theorem mem_distinctSources : source ∈ distinctSources links ↔ source ∈ links.map Link.source := by
  rw [distinctSources, List.mem_mergeSort, mem_newSources]
  exact and_iff_left Std.HashSet.not_mem_empty

/-- No source is listed twice. -/
theorem nodup_distinctSources (links : List Link) : (distinctSources links).Nodup :=
  (List.mergeSort_perm _ _).nodup_iff.mpr (nodup_newSources ∅ links)

/-- The listing is in order. -/
theorem pairwise_distinctSources (links : List Link) :
    (distinctSources links).Pairwise fun a b => compareSources a b = .lt := by
  have hsorted : (distinctSources links).Pairwise fun a b => sourceLE a b :=
    List.pairwise_mergeSort (fun a b c => Std.TransCmp.isLE_trans) sourceLE_total _
  -- A source that may stand before a different one comes before it.
  exact (hsorted.and (nodup_distinctSources links)).imp fun h => compareSources_eq_lt h.1 h.2

/-- As many sources are listed as there are different ones. -/
theorem length_distinctSources (links : List Link) :
    (distinctSources links).length = (links.map Link.source).toFinset.card := by
  rw [← List.toFinset_card_of_nodup (nodup_distinctSources links)]
  congr 1
  ext source
  rw [List.mem_toFinset, List.mem_toFinset, mem_distinctSources]

/-! ## The only listing -/

/-- A listing of the sources of some links: just these, each behind all that come before it in the
order. -/
structure ListsSources (links : List Link) (sources : List Text) : Prop where
  ordered : sources.Pairwise fun a b => compareSources a b = .lt
  mem_iff : ∀ source, source ∈ sources ↔ ∃ link ∈ links, link.source = source

/-- The distinct sources of some links list the sources of these links. -/
theorem listsSources_distinctSources (links : List Link) :
    ListsSources links (distinctSources links) where
  ordered := pairwise_distinctSources links
  mem_iff source := by rw [mem_distinctSources, List.mem_map]

namespace ListsSources

variable {links' : List Link} {sources sources' : List Text}

/-- There is only one listing of the sources of some links. -/
theorem unique (h : ListsSources links sources) (h' : ListsSources links sources') :
    sources = sources' := by
  have hnodup := h.ordered.imp ne_of_compareSources_eq_lt
  have hnodup' := h'.ordered.imp ne_of_compareSources_eq_lt
  have hperm : sources.Perm sources' := by
    rw [List.perm_ext_iff_of_nodup hnodup hnodup']
    intro source
    rw [h.mem_iff, h'.mem_iff]
  refine hperm.eq_of_pairwise ?_ h.ordered h'.ordered
  -- No two sources stand each before the other.
  intro a b _ _ hab hba
  rw [Std.OrientedCmp.gt_iff_lt.mpr hba] at hab
  cases hab

/-- A listing depends on nothing but which sources there are. -/
theorem of_same_sources (h : ListsSources links sources)
    (hsame : ∀ source, (∃ link ∈ links, link.source = source) ↔
      ∃ link ∈ links', link.source = source) : ListsSources links' sources where
  ordered := h.ordered
  mem_iff source := (h.mem_iff source).trans (hsame source)

end ListsSources

/-- Links are listed alike exactly if they have the same sources. -/
theorem distinctSources_eq_iff {links' : List Link} :
    distinctSources links = distinctSources links' ↔
      ∀ source, (∃ link ∈ links, link.source = source) ↔
        ∃ link ∈ links', link.source = source := by
  constructor
  · intro heq source
    rw [← (listsSources_distinctSources links).mem_iff, heq,
      (listsSources_distinctSources links').mem_iff]
  · intro hsame
    exact ((listsSources_distinctSources links).of_same_sources hsame).unique
      (listsSources_distinctSources links')

/-- Items that are all links are listed. -/
theorem distinctSourcesOfItems_map_ok {ε : Type} (links : List Link) :
    distinctSourcesOfItems (links.map .ok : List (Except ε Link)) = .ok (distinctSources links) := by
  rw [distinctSourcesOfItems, cutAtError_map_ok]

/-- The first error is the result, whatever follows it. -/
theorem distinctSourcesOfItems_append_error {ε : Type} (links : List Link) (e : ε)
    (rest : List (Except ε Link)) :
    distinctSourcesOfItems (links.map .ok ++ .error e :: rest) = .error e := by
  rw [distinctSourcesOfItems, cutAtError_map_ok_append_error]

/-- The listing of distinct sources is a canonical form of the set of sources. Sources are compared
by the number of their bytes and, if that is the same, by their bytes in lexicographic order; no two
different ones compare as equal, swapping them swaps the answer, and the comparison is transitive.
Items that are all links are listed, and a listing of their sources in strict order is the one that
they give. So two sequences of links have the same listing exactly if they have the same sources,
and in particular if one is the other in another order or with other repetitions. If some item is an
error, the first such item is the result. -/
theorem distinctSources_canonical {ε : Type} :
    (∀ a b, compareSources a b = .lt ↔ Utf8.size a < Utf8.size b ∨
      Utf8.size a = Utf8.size b ∧ Utf8.encode a < Utf8.encode b) ∧
    (∀ a b, compareSources a b = .eq ↔ a = b) ∧
    (∀ a b, compareSources b a = (compareSources a b).swap) ∧
    (∀ a b c, (compareSources a b).isLE → (compareSources b c).isLE →
      (compareSources a c).isLE) ∧
    (∀ links : List Link, ∃ sources, ListsSources links sources ∧
      distinctSourcesOfItems (links.map .ok : List (Except ε Link)) = .ok sources) ∧
    (∀ links sources, ListsSources links sources →
      distinctSourcesOfItems (links.map .ok : List (Except ε Link)) = .ok sources) ∧
    (∀ links links' : List Link,
      distinctSourcesOfItems (links.map .ok : List (Except ε Link)) =
          distinctSourcesOfItems (links'.map .ok) ↔
        ∀ source, (∃ link ∈ links, link.source = source) ↔
          ∃ link ∈ links', link.source = source) ∧
    (∀ links links' : List Link, links ⊆ links' → links' ⊆ links →
      distinctSourcesOfItems (links.map .ok : List (Except ε Link)) =
        distinctSourcesOfItems (links'.map .ok)) ∧
    ∀ (links : List Link) (e : ε) (rest : List (Except ε Link)),
      distinctSourcesOfItems (links.map .ok ++ .error e :: rest) = .error e := by
  have hsame (links links' : List Link) :
      distinctSourcesOfItems (links.map .ok : List (Except ε Link)) =
          distinctSourcesOfItems (links'.map .ok) ↔
        ∀ source, (∃ link ∈ links, link.source = source) ↔
          ∃ link ∈ links', link.source = source := by
    rw [distinctSourcesOfItems_map_ok, distinctSourcesOfItems_map_ok, Except.ok.injEq,
      distinctSources_eq_iff]
  refine ⟨fun _ _ => compareSources_eq_lt_iff, fun _ _ => Std.LawfulEqCmp.compare_eq_iff_eq,
    fun _ _ => Std.OrientedCmp.eq_swap, fun _ _ _ => Std.TransCmp.isLE_trans, ?_, ?_, hsame, ?_,
    distinctSourcesOfItems_append_error⟩
  · intro links
    exact ⟨_, listsSources_distinctSources links, distinctSourcesOfItems_map_ok links⟩
  · intro links sources hlists
    rw [distinctSourcesOfItems_map_ok, (listsSources_distinctSources links).unique hlists]
  · intro links links' hsub hsub'
    rw [hsame]
    intro source
    constructor
    · exact fun ⟨link, hmem, hsource⟩ => ⟨link, hsub hmem, hsource⟩
    · exact fun ⟨link, hmem, hsource⟩ => ⟨link, hsub' hmem, hsource⟩

/-- Four bytes come behind two, and of two sources of four bytes the one of two characters comes
first, for its smaller bytes. A source that occurs twice is listed once. -/
theorem distinctSources_canonical_of_three_sources :
    distinctSourcesOfItems ([⟨['𝄞'], [], []⟩, ⟨['z', 'z'], ['x'], []⟩, ⟨['é', 'é'], [], []⟩,
        ⟨['z', 'z'], [], []⟩].map .ok : List (Except Unit Link)) =
      .ok [['z', 'z'], ['é', 'é'], ['𝄞']] := by
  obtain ⟨-, -, -, -, -, hlists, -⟩ := @distinctSources_canonical Unit
  refine hlists _ _ ⟨by decide, ?_⟩
  intro source
  simp only [List.mem_cons, List.not_mem_nil, or_false, exists_eq_or_imp, exists_eq_left]
  tauto

end LinkDump
