import UnionView.Attribute.Attachment
import UnionView.Proofs.Dispatch.Outcome
import UnionView.Proofs.Source.Report

/-!
# Reports and attachments agree

A declaration with the attribute gets the same dispatcher on both ways: from a report on the file
that it makes up, and attached to it when the attribute is taken off. The way through the file finds
the arguments in the attribute and lays them over settings from a settings file; the other way is
given the arguments and the declaration without the attribute. The two see different marks, so they
agree on texts, not on places.
-/

namespace UnionView

open Reader

/-! ### What both ways give -/

/-- The tokens of the arguments in an attribute. A bare attribute has none, and one with a value
has no arguments at all. -/
def Attribute.argumentCode? (a : Attribute) : Option Code :=
  match a.content.form with
  | .bare => some []
  | .list group => some group.inner
  | .value _ _ _ => none

/-- A report and what is attached to a declaration say the same: either there is one error with one
message and no dispatcher, or there is one dispatcher with one text, and the same warnings. -/
inductive FileReport.AgreesWith (report : FileReport) (declaration : Code) :
    Except Fault Attachment → Prop
  | fault {fault : Fault} {d : Diagnostic} (generated : report.generated = [])
      (diagnostics : report.diagnostics = [d]) (severity : d.severity = .error)
      (message : d.message = fault.message) : AgreesWith report declaration (.error fault)
  | dispatcher {attachment : Attachment} {g : Generated} {appended : Code}
      (generated : report.generated = [g]) (code : attachment.code = declaration ++ appended)
      (source : g.source = appended.text)
      (said : report.diagnostics.map (fun d => (d.severity, d.message)) =
        attachment.notices.map fun n => (n.severity, n.message))
      (warnings : ∀ d ∈ report.diagnostics, d.severity = .warning) :
      AgreesWith report declaration (.ok attachment)

/-! ### The arguments -/

/-- Where arguments stand decides where their faults are and nothing else. -/
lemma AttributeArguments.ofCode_behind (code : Code) (behind : Nat) :
    AttributeArguments.ofCode code behind =
      (AttributeArguments.ofCode code).mapError (Fault.shift behind) := by
  unfold AttributeArguments.ofCode
  cases Reader.run (reader code.grammar) code <;> rfl

lemma Attribute.arguments_eq {a : Attribute} {code : Code} (h : a.argumentCode? = some code) :
    ∃ behind, a.arguments = AttributeArguments.ofCode code behind := by
  unfold Attribute.argumentCode? at h
  unfold Attribute.arguments
  cases hform : a.content.form with
  | bare =>
    rw [hform] at h
    cases h
    exact ⟨0, rfl⟩
  | list group =>
    rw [hform] at h
    cases h
    exact ⟨group.closeAt, rfl⟩
  | value equals place form =>
    rw [hform] at h
    cases h

/-! ### The declaration in the file -/

lemma Read.eq_of_innerAttributes_nil {g : Grammar} {c d : Cursor}
    (h : Read.innerAttributes g c = .ok ([], d)) : d = c := by
  have hstep := step_of_collect_nil h
  obtain ⟨_, _, ⟨⟩, hstep⟩ := bind_eq_ok.mp hstep
  obtain ⟨_, _, ⟨⟩, hstep⟩ := bind_eq_ok.mp hstep
  split at hstep
  · obtain ⟨_, _, -, ⟨⟩⟩ := bind_eq_ok.mp hstep
  · cases hstep
    rfl

lemma Code.item?_of_file? {code : Code} {item : Item}
    (h : code.file? = .ok { attributes := [], items := [item] }) : code.item? = .ok item := by
  obtain ⟨d, hfile, hleft, hrest⟩ := run_eq_ok_iff.mp h
  obtain ⟨attributes, c₁, hattributes, hfile⟩ := bind_eq_ok.mp hfile
  obtain ⟨items, c₂, hitems, ⟨⟩⟩ := bind_eq_ok.mp hfile
  obtain rfl := Read.eq_of_innerAttributes_nil hattributes
  exact run_eq_ok_iff.mpr ⟨d, eq_ok_of_untilEnd hitems, hleft, hrest⟩

/-- An enumeration stays the same enumeration if one of its attributes is taken off, which leaves
the others. -/
lemma Code.item?_withoutAttribute {code : Code} {e : Enumeration} {a : Attribute}
    {before after : List Attribute} (h : code.item? = .ok (.enumeration e))
    (hattributes : e.attributes = before ++ a :: after) :
    ∃ before', (code.withoutAttribute a).item? =
        .ok (.enumeration { e with attributes := before' ++ after }) ∧
      before'.map (·.content.path) = before.map (·.content.path) := by
  obtain ⟨d, hdeclaration, hleft, hrest⟩ := run_eq_ok_iff.mp h
  obtain ⟨c, pre, rest, hcollect, hkeyword, -, hleftover⟩ :=
    Read.declaration_eq_ok_enumeration hdeclaration
  have hne : c.rest ≠ [] := by simp [hkeyword]
  have hleft' : c.leftover = none := hleftover hleft
  have hbehind : c.behind = 0 := (Read.forward_declaredAttributes hcollect).2
  obtain ⟨hattributed, hhash⟩ := Read.attributed_of_collect hcollect hne hleft'
  rw [hattributes] at hattributed
  obtain ⟨before', hwithout, hpaths⟩ := hattributed.withoutAttribute
  obtain ⟨written, hcollect'⟩ := Read.collect_of_attributed hwithout hhash
  obtain ⟨d', hdeclaration', hrest', hleft''⟩ :=
    Read.declaration_of_attributes hdeclaration hcollect hcollect' rfl hbehind.symm hleft'.symm
  refine ⟨before', run_eq_ok_iff.mpr ⟨d', hdeclaration', ?_, ?_⟩, hpaths⟩
  · rw [hleft'', hleft]
  · rw [hrest', hrest]

/-- Whether an attribute asks for a dispatcher is a matter of its path. -/
lemma Attribute.isRequest_congr {a b : Attribute} (h : a.content.path = b.content.path) :
    a.isRequest = b.isRequest := by
  simp only [isRequest, h]

/-- Without its only request, an enumeration is the same union, and nothing asks for a dispatcher
again. -/
lemma Code.expand_withoutAttribute {code : Code} {e : Enumeration} {a : Attribute}
    (h : code.item? = .ok (.enumeration e))
    (single : e.attributes.filter Attribute.isRequest = [a]) :
    (code.withoutAttribute a).request? = none ∧
      ∀ settings, (code.withoutAttribute a).expand settings = e.toUnion.expand settings := by
  obtain ⟨before, after, hattributes, hbefore, -, hafter⟩ := List.filter_eq_cons_iff.mp single
  obtain ⟨before', hitem, hpaths⟩ := Code.item?_withoutAttribute h hattributes
  -- the attributes in front have other marks now, but a request is recognized by its path
  have hnone : (before' ++ after).filter Attribute.isRequest = [] := by
    rw [List.filter_append, hafter, List.append_nil, List.filter_eq_nil_iff]
    intro b hb
    have hpath := List.mem_map_of_mem (f := fun b : Attribute => b.content.path) hb
    rw [hpaths] at hpath
    obtain ⟨b', hb', hpath⟩ := List.mem_map.mp hpath
    rw [← Attribute.isRequest_congr hpath]
    exact hbefore b' hb'
  constructor
  · unfold Code.request?
    rw [hitem]
    show (List.filter _ (before' ++ after)).head? = none
    rw [hnone]
    rfl
  · intro settings
    simp only [Code.expand, hitem, Item.expand, Item.extract]
    rfl

/-! ### The report on the file -/

/-- A declaration with one request is selected with the arguments of the request. -/
lemma selectAll_of_request {e : Enumeration} {a : Attribute}
    (single : e.attributes.filter Attribute.isRequest = [a]) (names : List String) :
    selectAll names [.enumeration e] =
      [{ item := .enumeration e, arguments := some a.arguments }] := by
  have hrequests : (Item.enumeration e).requests = [a] := single
  have harguments : (Item.enumeration e).arguments? = some a.arguments := by
    simp only [Item.arguments?, hrequests]
  simp [selectAll, Item.selection, Item.selected?, harguments]

lemma reportOn_of_ofText {text : String} {listing : Listing} {file : File}
    (h : File.ofText text = .ok (listing, file)) (fileName : String) (names : List String) :
    reportOn fileName text {} names =
      .ok (.ofYields fileName ((selectAll names file.items).map (·.yield listing {}))) :=
  reportOn_eq_ok_iff.mpr ⟨listing, file, {}, h, rfl, rfl⟩

lemma Code.file?_of_ofText {text : String} {listing : Listing} {file : File}
    (h : File.ofText text = .ok (listing, file)) : listing.code.file? = .ok file := by
  unfold File.ofText readText at h
  split at h
  · cases h
  · split at h
    · cases h
    · rename_i hread
      cases h
      exact hread

/-- The dispatcher of a union is the same in a report and behind a declaration, and so is what there
is to say of it. -/
lemma FileReport.agreesWith_expand (fileName : String) (listing : Listing) (item : Item)
    (u : TaggedUnion) (settings : Settings) (declaration : Code) :
    (FileReport.ofYields fileName
      [{ name := item.name?
         generated := (u.expand settings).artifact.map Artifact.toGenerated
         diagnostics := (u.expand settings).diagnostics listing }]).AgreesWith declaration
      (.ok { code := declaration ++ (u.expand settings).code
             notices := (u.expand settings).findings.map .ofFinding }) := by
  have hdiagnostics : [(u.expand settings).diagnostics listing].flatten =
      (u.expand settings).findings.map (Finding.placedIn listing) := List.append_nil _
  refine .dispatcher rfl rfl rfl ?_ ?_
  · show ([(u.expand settings).diagnostics listing].flatten).map _ = _
    rw [hdiagnostics, List.map_map, List.map_map]
    rfl
  · show ∀ d ∈ [(u.expand settings).diagnostics listing].flatten, _
    rw [hdiagnostics, u.findings_expand]
    intro d hd
    obtain ⟨f, hf, rfl⟩ := List.mem_map.mp hd
    split at hf
    · obtain rfl := List.mem_singleton.mp hf
      rfl
    · cases hf

/-- The report on a file that is one declaration with the attribute agrees with what is attached to
the declaration without it. -/
theorem report_agrees_with_attachment (fileName text : String) (names : List String)
    {listing : Listing} {e : Enumeration} {a : Attribute} {arguments : Code}
    (file : File.ofText text = .ok (listing, { attributes := [], items := [.enumeration e] }))
    (single : e.attributes.filter Attribute.isRequest = [a])
    (written : a.argumentCode? = some arguments) :
    ∃ report, reportOn fileName text {} names = .ok report ∧
      report.AgreesWith (listing.code.withoutAttribute a)
        (Code.attach arguments (listing.code.withoutAttribute a)) := by
  have hitem := Code.item?_of_file? (Code.file?_of_ofText file)
  obtain ⟨hrequest, hexpand⟩ := Code.expand_withoutAttribute hitem single
  obtain ⟨behind, harguments⟩ := Attribute.arguments_eq written
  rw [AttributeArguments.ofCode_behind] at harguments
  refine ⟨_, reportOn_of_ofText file fileName names, ?_⟩
  rw [selectAll_of_request single names, harguments]
  unfold Code.attach
  rw [hrequest]
  cases AttributeArguments.ofCode arguments with
  | error fault => exact .fault rfl rfl rfl rfl
  | ok read =>
    simp only [hexpand]
    exact FileReport.agreesWith_expand fileName listing (.enumeration e) e.toUnion _ _

/-- Whether what was read is one enumeration with `a` as its only request. -/
def File.isRequestedBy (a : Attribute) : Except TextFault (Listing × File) → Bool
  | .ok (_, { attributes := [], items := [.enumeration e] }) =>
    e.attributes.filter Attribute.isRequest = [a]
  | _ => false

lemma File.eq_of_isRequestedBy {a : Attribute} {read : Except TextFault (Listing × File)}
    (h : File.isRequestedBy a read = true) :
    ∃ listing e, read = .ok (listing, { attributes := [], items := [.enumeration e] }) ∧
      e.attributes.filter Attribute.isRequest = [a] := by
  unfold File.isRequestedBy at h
  split at h
  · exact ⟨_, _, rfl, of_decide_eq_true h⟩
  · cases h

/-- A request with an argument, behind another attribute. -/
def wrapperText : String :=
  "#[a] #[with_switch_case_view(runtime = ui)] enum Wrapper<T> \x7b Held(Value, T), Missing \x7d"

def wrapperRequest : Attribute :=
  { mark := 24
    content :=
      { mark := 22
        nameMark := 22
        path := Path.ofName "with_switch_case_view"
        form := .list
          { delimiter := .round
            openAt := 21
            inner := [.ident "runtime", .punct '=' .alone, .ident "ui"]
            closeAt := 17 } } }

/-- What is attached to the enumeration in `wrapperText` is what a report on this text says. -/
theorem report_agrees_on_wrapper :
    ∃ listing e report,
      File.ofText wrapperText = .ok (listing, { attributes := [], items := [.enumeration e] }) ∧
      e.attributes.filter Attribute.isRequest = [wrapperRequest] ∧
      reportOn "src/wrapper" wrapperText {} [] = .ok report ∧
      report.AgreesWith (listing.code.withoutAttribute wrapperRequest)
        (Code.attach [.ident "runtime", .punct '=' .alone, .ident "ui"]
          (listing.code.withoutAttribute wrapperRequest)) := by
  have read : File.isRequestedBy wrapperRequest (File.ofText wrapperText) = true := by
    decide +kernel
  have written : wrapperRequest.argumentCode? =
      some [.ident "runtime", .punct '=' .alone, .ident "ui"] := rfl
  obtain ⟨listing, e, file, single⟩ := File.eq_of_isRequestedBy read
  obtain ⟨report, hreport, hagrees⟩ :=
    report_agrees_with_attachment "src/wrapper" wrapperText [] file single written
  exact ⟨listing, e, report, file, single, hreport, hagrees⟩

end UnionView
