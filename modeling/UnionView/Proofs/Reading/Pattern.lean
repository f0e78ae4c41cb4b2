import UnionView.Proofs.Reading.Path

/-!
# Reading the patterns of the generated match
-/

namespace UnionView

open Reader

/-- A pattern whose names may stand where it is printed. -/
structure ArmPattern.IsNamed (p : ArmPattern) : Prop where
  owner : Terminal.identifier.fits [.ident p.owner] = true
  variant : Terminal.identifier.fits [.ident p.variant] = true
  field : ∀ name, p.fields = .field name → Terminal.identifier.fits [.ident name] = true

namespace Read

variable {rest : Code}

/-! ### Fields -/

/-- A named field that is bound is read as one, though its name is not known. -/
lemma takes_fieldPattern (fuel : Nat) {name : String}
    (hname : Terminal.identifier.fits [.ident name] = true) :
    Takes (fieldPattern (grammar (fuel + 1)))
      (wordCode name ++ (opCode ":" ++ wordCode FieldsPattern.boundName)) (opCode "," ++ rest)
      fun _ => True := by
  have hword (text : String) (htext : reservedWords.contains text = true) :
      (Terminal.word text).fits
        (wordCode name ++ (opCode ":" ++ wordCode FieldsPattern.boundName) ++
        (opCode "," ++ rest)) = false := Terminal.fits_word_of_identifier hname htext
  unfold fieldPattern
  refine .refuse (hword _ (by decide)) (.refuse (hword _ (by decide)) ?_)
  refine .refuse (hword _ (by decide)) ?_
  have hmember : Takes member (wordCode name)
      (opCode ":" ++ wordCode FieldsPattern.boundName ++ (opCode "," ++ rest)) (· = true) := by
    unfold member
    exact .see hname (.last (.identifier hname) fun _ _ => .pure rfl)
  refine .bind hmember ?_
  rintro _ rfl
  exact fun _ _ => ⟨_, _, rfl, trivial⟩

/-- The fields of a pattern that binds one of them by its name. -/
lemma takes_fieldPatterns (fuel : Nat) {name : String}
    (hname : Terminal.identifier.fits [.ident name] = true) :
    Takes (fieldPatterns (grammar (fuel + 1)))
      (wordCode name ++ opCode ":" ++ wordCode FieldsPattern.boundName ++ opCode "," ++ opCode "..")
      (.closing .curly :: rest) fun _ => True := by
  have hfield : Takes _ (wordCode name ++ (opCode ":" ++ wordCode FieldsPattern.boundName))
      (opCode "," ++ (opCode ".." ++ .closing .curly :: rest)) _ := takes_fieldPattern fuel hname
  rw [List.append_assoc (wordCode name)]
  refine TakesEach.repeatWhile (.goOn nofun ?_ (.stop fun _ _ => ⟨_, _, rfl, rfl⟩))
  refine .seeEnd rfl (.look (takes_outerAttributes_nil _ rfl) (.refuse rfl ?_))
  refine .seq hfield fun _ => .seeEnd rfl ?_
  exact fun _ _ => ⟨_, _, rfl, rfl⟩

/-! ### Patterns -/

def patternPath (p : ArmPattern) : Path :=
  { first := { name := p.owner }, more := [{ name := p.variant }] }

lemma endsPath_fields (fields : FieldsPattern) (behind : Code) :
    (fields.code ++ (opCode "=>" ++ behind)).EndsPath := by
  cases fields <;> exact ⟨rfl, rfl, rfl, rfl⟩

lemma takes_pattern (fuel : Nat) {p : ArmPattern} (h : p.IsNamed) (behind : Code) :
    Takes ((grammar (fuel + 2)).pattern) p.code (opCode "=>" ++ behind) fun _ => True := by
  show Takes (pattern (grammar (fuel + 1))) ((patternPath p).code ++ p.fields.code) _ _
  have howner := Path.segmentStarts_of_identifier h.owner
  have hstart : Takes startsPathPattern [] ((patternPath p).code ++ p.fields.code ++
      (opCode "=>" ++ behind)) (· = true) := by
    have hwords : (["Self", "super", "crate"].map Terminal.word).any
        (·.fits ((patternPath p).code ++ p.fields.code ++ (opCode "=>" ++ behind))) = false :=
      Terminal.any_words_of_identifier h.owner (by decide)
    unfold startsPathPattern
    refine .seeAny hwords (.see (Terminal.fits_word_of_identifier h.owner (by decide)) ?_)
    refine .seeSecond rfl (.see h.owner (.seeSecond rfl (.seeSecond rfl (.seeSecond rfl ?_))))
    exact .seeSecond rfl (.seeSecond rfl (.pure rfl))
  have hends := endsPath_fields p.fields behind
  have hpath : Takes (path (grammar (fuel + 1)) true) (patternPath p).code
      (p.fields.code ++ (opCode "=>" ++ behind)) (patternPath p).IsNamed := by
    refine takes_path _ (List.forall_mem_cons.mpr ⟨⟨howner, .inl rfl⟩, ?_⟩) hends.endsNames
    exact List.forall_mem_singleton.mpr ⟨Path.segmentStarts_of_identifier h.variant, .inl rfl⟩
  unfold pattern pathPattern
  refine .look hstart (.seq (takes_qualifiedPath _ (Path.startsPath howner _) hpath) fun q => ?_)
  refine .see hends.exclamation (.see rfl ?_)
  cases hfields : p.fields with
  | unit => exact fun _ _ => ⟨_, _, rfl, trivial⟩
  | anyTuple => exact fun _ _ => ⟨_, _, rfl, trivial⟩
  | anyNamed => exact fun _ _ => ⟨_, _, rfl, trivial⟩
  | firstOfTuple => exact fun _ _ => ⟨_, _, rfl, trivial⟩
  | field name =>
    exact .see rfl (.last (.group (takes_fieldPatterns fuel (h.field name hfields)))
      fun _ _ => .pure trivial)

end Read

end UnionView
