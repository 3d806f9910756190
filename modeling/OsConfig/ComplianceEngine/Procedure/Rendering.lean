import OsConfig.ComplianceEngine.Procedure.Grammar

/-!
# Rendering of `key=value` pairs

A map of parameters is rendered with one quoted value for every key. The parser
reads the map back from its rendering, in whatever order the pairs stand.
-/

namespace OsConfig.ComplianceEngine.ProcedureParameters

open ByteString

/-- `key="value"`, with a backslash in front of every backslash and every quote. -/
def renderPair (quote : UInt8) (pair : ByteString × ByteString) : ByteString :=
  pair.1 ++ 61 :: quote :: (Quoting.render 92 quote pair.2 ++ [quote])

/-- The pairs with spaces between them. -/
def renderPairs (quote : UInt8) (pairs : List (ByteString × ByteString)) : ByteString :=
  [32].intercalate (pairs.map (renderPair quote))

theorem Pairs.space {space text : ByteString} {pairs : List (ByteString × ByteString)}
    (blank : IsBlank space) (grammatical : Pairs text pairs) : Pairs (space ++ text) pairs := by
  have both : ∀ {space' : ByteString}, IsBlank space' → IsBlank (space ++ space') := by
    intro space' blank' byte mem
    rcases List.mem_append.mp mem with first | second
    · exact blank byte first
    · exact blank' byte second
  cases grammatical with
  | blank blank' => exact .blank (both blank')
  | item blank' isKey valueText separated following =>
      rw [← List.append_assoc]
      exact .item (both blank') isKey valueText separated following

theorem valueText_render {quote : UInt8} (isQuote : IsQuote quote) (value : ByteString) :
    ValueText (quote :: Quoting.render 92 quote value ++ [quote]) value :=
  .quoted isQuote (Quoting.body_render value)

/-- A rendering is a text of the grammar. -/
theorem pairs_renderPairs {quote : UInt8} (isQuote : IsQuote quote)
    {pairs : List (ByteString × ByteString)} (keys : ∀ pair ∈ pairs, IsKey pair.1) :
    Pairs (renderPairs quote pairs) pairs := by
  induction pairs with
  | nil => exact .blank isBlank_nil
  | cons pair rest ih =>
      have isKey := keys pair List.mem_cons_self
      have following := ih fun other mem => keys other (List.mem_cons_of_mem _ mem)
      cases rest with
      | nil =>
          have item : Pairs _ _ := .item isBlank_nil isKey (valueText_render isQuote pair.2)
            separated_nil (.blank isBlank_nil)
          simpa [renderPairs, renderPair] using item
      | cons next others =>
          have spaced : Pairs ([32] ++ renderPairs quote (next :: others)) (next :: others) :=
            .space (by simp [IsBlank, isSpace]) following
          have item : Pairs _ _ := .item isBlank_nil isKey (valueText_render isQuote pair.2)
            (by simp [Separated, isSpace]) spaced
          simpa [renderPairs, renderPair, List.intercalate] using item

theorem getElem?_collect {pairs : List (ByteString × ByteString)}
    (distinct : pairs.Pairwise fun first second => first.1 ≠ second.1) (result : ParameterMap)
    (fresh : ∀ pair ∈ pairs, pair.1 ∉ result) (key : ByteString) :
    (∀ value, (key, value) ∈ pairs → (collect result pairs)[key]? = some value) ∧
      ((∀ pair ∈ pairs, pair.1 ≠ key) → (collect result pairs)[key]? = result[key]?) := by
  induction pairs generalizing result with
  | nil => simp [collect]
  | cons pair rest ih =>
      rcases List.pairwise_cons.mp distinct with ⟨others, rest_distinct⟩
      have pair_fresh : pair.1 ∉ result := fresh pair List.mem_cons_self
      have rest_fresh : ∀ other ∈ rest, other.1 ∉ result.insertIfNew pair.1 pair.2 := by
        intro other mem contained
        rw [Std.ExtTreeMap.mem_insertIfNew] at contained
        rcases contained with same | before
        · exact others other mem (Std.LawfulEqCmp.eq_of_compare same)
        · exact fresh other (List.mem_cons_of_mem _ mem) before
      rcases ih rest_distinct (result.insertIfNew pair.1 pair.2) rest_fresh with ⟨sets, keeps⟩
      constructor
      · intro value mem
        rcases List.mem_cons.mp mem with rfl | later
        · have kept := keeps fun other mem => (others other mem).symm
          rw [Std.ExtTreeMap.getElem?_insertIfNew, if_pos ⟨Std.ReflCmp.compare_self, pair_fresh⟩]
            at kept
          exact kept
        · exact sets value later
      · intro absent
        have kept := keeps fun other mem => absent other (List.mem_cons_of_mem _ mem)
        rw [Std.ExtTreeMap.getElem?_insertIfNew, if_neg] at kept
        · exact kept
        · rintro ⟨same, -⟩
          exact absent pair List.mem_cons_self (Std.LawfulEqCmp.eq_of_compare same)

/-- The pairs of a map, in any order, make the map again. -/
theorem collect_perm {map : ParameterMap} {pairs : List (ByteString × ByteString)}
    (perm : pairs.Perm map.toList) : collect ∅ pairs = map := by
  have distinct : pairs.Pairwise fun first second => first.1 ≠ second.1 :=
    (perm.pairwise_iff fun different => different.symm).mpr (distinct_keys map)
  apply Std.ExtTreeMap.ext_getElem?
  intro key
  rcases getElem?_collect distinct ∅ (by simp) key with ⟨sets, keeps⟩
  cases found : map[key]? with
  | some value =>
      apply sets
      rw [perm.mem_iff]
      exact Std.ExtTreeMap.mem_toList_iff_getElem?_eq_some.mpr found
  | none =>
      rw [keeps]
      · simp
      · rintro ⟨other, value⟩ mem rfl
        rw [perm.mem_iff, Std.ExtTreeMap.mem_toList_iff_getElem?_eq_some, found] at mem
        cases mem

/-- The parser reads a map back from its rendering, with double or with single quotes and the
pairs in any order. -/
theorem parseString_renderPairs {quote : UInt8} (isQuote : IsQuote quote) {map : ParameterMap}
    (keys : ∀ key ∈ map, IsKey key) {pairs : List (ByteString × ByteString)}
    (perm : pairs.Perm map.toList) : parseString (renderPairs quote pairs) = .ok map := by
  have pair_keys : ∀ pair ∈ pairs, IsKey pair.1 := by
    intro pair mem
    apply keys
    rw [perm.mem_iff, Std.ExtTreeMap.mem_toList_iff_getElem?_eq_some] at mem
    rw [Std.ExtTreeMap.mem_iff_isSome_getElem?, mem]
    rfl
  rw [parseString_of_pairs (pairs_renderPairs isQuote pair_keys), collect_perm perm]

/-- A value of quotes and backslashes comes back. -/
theorem parseString_renderPairs_quotes :
    IsQuote 34 ∧
      parseString (renderPairs 34 [(bytes "k", bytes "\"\\'")]) =
        .ok ((∅ : ParameterMap).insert (bytes "k") (bytes "\"\\'")) := by
  refine ⟨by decide, parseString_renderPairs (by decide) ?_ ?_⟩
  · intro key mem
    have key_eq : key = bytes "k" := by
      rw [Std.ExtTreeMap.mem_insert] at mem
      rcases mem with same | before
      · exact (Std.LawfulEqCmp.eq_of_compare same).symm
      · simp at before
    subst key_eq
    exact ⟨⟨by decide, by decide⟩, by simp⟩
  · decide

end OsConfig.ComplianceEngine.ProcedureParameters
