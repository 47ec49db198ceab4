import SharedViews.Inspection.Exchange
import SharedViews.Proofs.Inspection.Confinement
import SharedViews.Proofs.Json.OneLine
import SharedViews.Proofs.Text.ByteOrder
import SharedViews.Proofs.Text.Trimming

/-! One line in, at most one line out.

Of the bytes of a connection the first line counts. If it is no text, or no JSON once the blanks
around it are gone, nothing is sent and nothing happens. Otherwise one line is sent, and what
the request is decides what kind of answer it holds: which method it names, and whether that
method has the text it needs (`verdict`). All other data in a request only comes back as the
`id` or goes to the method (`lines_answered`). -/
namespace SharedViews.Inspection
variable {line bytes : List UInt8} {core : List Char} {method name : String}
  {params data : Json} {e : Engine}

/-! ### The first line -/

/-- The bytes begin with the line: up to a line break and with it, or to their end. -/
inductive IsFirstLine : List UInt8 → List UInt8 → Prop
  | ended {line : List UInt8} (h : 10 ∉ line) (rest : List UInt8) :
      IsFirstLine (line ++ [10]) (line ++ 10 :: rest)
  | whole {line : List UInt8} (h : 10 ∉ line) : IsFirstLine line line

theorem IsFirstLine.cons (h : IsFirstLine line bytes) {b : UInt8} (hb : b ≠ 10) :
    IsFirstLine (b :: line) (b :: bytes) := by
  cases h with
  | ended hline rest => exact .ended (List.not_mem_cons_of_ne_of_not_mem hb.symm hline) rest
  | whole hline => exact .whole (List.not_mem_cons_of_ne_of_not_mem hb.symm hline)

theorem isFirstLine_firstLine (bytes : List UInt8) : IsFirstLine (firstLine bytes) bytes := by
  induction bytes with
  | nil => exact .whole List.not_mem_nil
  | cons b rest ih =>
    by_cases hb : b = 10
    · subst hb
      exact .ended List.not_mem_nil rest
    · rw [firstLine, if_neg hb]
      exact ih.cons hb

theorem firstLine_append_of_not_mem (h : 10 ∉ line) (rest : List UInt8) :
    firstLine (line ++ rest) = line ++ firstLine rest := by
  induction line with
  | nil => rfl
  | cons b line ih =>
    have hb : ¬ b = 10 := fun heq => h (heq ▸ List.mem_cons_self)
    rw [List.cons_append, firstLine, if_neg hb, ih fun hmem => h (List.mem_cons_of_mem b hmem)]
    rfl

/-- Bytes have one first line. -/
theorem isFirstLine_iff : IsFirstLine line bytes ↔ line = firstLine bytes := by
  constructor
  · intro h
    cases h with
    | ended h rest => rw [firstLine_append_of_not_mem h, firstLine, if_pos rfl]
    | whole h => simpa [firstLine] using (firstLine_append_of_not_mem h []).symm
  · rintro rfl
    exact isFirstLine_firstLine bytes

/-! ### The request -/

/-- Bytes are read as the text that they are the UTF-8 of. -/
theorem fromUTF8?_eq_some_iff {text : String} :
    String.fromUTF8? (ByteArray.mk line.toArray) = some text ↔ Text.bytes text = line := by
  have hsame : text.toByteArray = ByteArray.mk line.toArray ↔ Text.bytes text = line := by
    constructor
    · intro h
      rw [Text.bytes, String.toUTF8_eq_toByteArray, h]
    · rintro rfl
      rfl
  rw [← hsame, String.fromUTF8?]
  split
  next hvalid =>
    rw [Option.some.injEq]
    exact ⟨fun h => by rw [← h]; rfl, fun h => String.toByteArray_inj.mp h.symm⟩
  next hinvalid =>
    refine iff_of_false (Option.some_ne_none text).symm fun h => hinvalid ?_
    rw [← h]
    exact text.isValidUTF8

theorem ofBytes?_of_text {bytes : ByteArray} {text : String}
    (hline : IsFirstLine (Text.bytes text) bytes.toList) (hcore : Text.IsCore text.toList core) :
    Inquiry.ofBytes? bytes = (Json.parseChars core).map .ofJson := by
  have hread := fromUTF8?_eq_some_iff.mpr (isFirstLine_iff.mp hline)
  unfold Inquiry.ofBytes?
  rw [hread, ← hcore.trimChars_eq]
  show (Json.parseChars (Text.trimChars text.toList)).bind _ = _
  cases Json.parseChars (Text.trimChars text.toList) <;> rfl

theorem ofBytes?_of_no_text {bytes : ByteArray} (hline : IsFirstLine line bytes.toList)
    (h : ∀ text, Text.bytes text ≠ line) : Inquiry.ofBytes? bytes = none := by
  have hread : String.fromUTF8? (ByteArray.mk (firstLine bytes.toList).toArray) = none := by
    refine Option.eq_none_iff_forall_ne_some.mpr fun text htext => h text ?_
    rw [isFirstLine_iff.mp hline]
    exact fromUTF8?_eq_some_iff.mp htext
  unfold Inquiry.ofBytes?
  rw [hread]
  rfl

theorem string?_field_eq_some_iff {text : String} :
    (data.field name).string? = some text ↔ data.field? name = some (.string text) := by
  unfold Json.field
  cases data.field? name with
  | none => simp [Json.string?]
  | some value => cases value <;> simp [Json.string?]

/-- A request that gives its method no name gives it an empty one, which is nobody's. -/
theorem method_ofJson_eq_iff (h : method ≠ "") :
    (Inquiry.ofJson data).method = method ↔ data.field? "method" = some (.string method) := by
  rw [← string?_field_eq_some_iff]
  show ((data.field "method").string?).getD "" = method ↔ _
  cases (data.field "method").string? with
  | none => exact iff_of_false h.symm nofun
  | some other => simp

/-! ### What is decided -/

/-- The methods there are. -/
def methodNames : List String :=
  ["list_contexts", "list_clients", "cache_stats", "render_stats", "list_scopes",
    "invalidate_scope", "clear_cache", "get_global", "set_global"]

/-- The parameter that a method needs as a text, if it needs one. -/
def textParameter? (method : String) : Option String :=
  if method = "invalidate_scope" then some "scope"
  else if method = "get_global" ∨ method = "set_global" then some "key"
  else none

theorem mem_methodNames : method ∈ methodNames ↔ ∃ m : Method, method = m.name := by
  have hnames : methodNames = Method.all.map Method.name := rfl
  rw [hnames, List.mem_map]
  constructor
  · intro h
    obtain ⟨m, _, rfl⟩ := h
    exact ⟨m, rfl⟩
  · intro h
    obtain ⟨m, rfl⟩ := h
    exact ⟨m, by cases m <;> decide, rfl⟩

/-- What a request comes to, by its method and the parameter that the method needs. -/
inductive Verdict (method : String) (params : Json) : Except Refusal Json → Prop
  | unknown (h : method ∉ methodNames) : Verdict method params (.error .unknownMethod)
  | lacking {name : String} (h : textParameter? method = some name)
      (hlacks : ∀ text, params.field? name ≠ some (.string text)) :
      Verdict method params (.error (.missingParameter name))
  | served (h : method ∈ methodNames)
      (hgiven : ∀ name, textParameter? method = some name →
        ∃ text, params.field? name = some (.string text)) (value : Json) :
      Verdict method params (.ok value)

/-- A method that needs no text is served. -/
theorem Verdict.of_free {m : Method} (h : textParameter? m.name = none) (value : Json) :
    Verdict m.name params (.ok value) := by
  refine .served (mem_methodNames.mpr ⟨m, rfl⟩) (fun name hname => ?_) value
  rw [h] at hname
  cases hname

/-- A method that needs a text is served if it gets one. -/
theorem Verdict.of_parameter {m : Method} (h : textParameter? m.name = some name)
    {outcome : Except Refusal Json}
    (hrefused : stringParameter params name = .error (.missingParameter name) →
      outcome = .error (.missingParameter name))
    (hserved : ∀ text, stringParameter params name = .ok text → ∃ value, outcome = .ok value) :
    Verdict m.name params outcome := by
  have hparameter := stringParameter_eq params name
  cases htext : (params.field name).string? with
  | none =>
    rw [htext] at hparameter
    rw [hrefused hparameter]
    refine .lacking h fun text hgiven => ?_
    rw [← string?_field_eq_some_iff, htext] at hgiven
    cases hgiven
  | some text =>
    rw [htext] at hparameter
    obtain ⟨value, hvalue⟩ := hserved text hparameter
    rw [hvalue]
    refine .served (mem_methodNames.mpr ⟨m, rfl⟩) (fun other hother => ⟨text, ?_⟩) value
    rw [h] at hother
    cases hother
    exact string?_field_eq_some_iff.mp htext

theorem verdict (method : String) (params : Json) (e : Engine) :
    Verdict method params (call method params e).1 := by
  by_cases h : ∃ m : Method, method = m.name
  · obtain ⟨m, rfl⟩ := h
    rw [call_of_name]
    cases m with
    | invalidateScope | getGlobal | setGlobal =>
      refine .of_parameter rfl (fun h => ?_) fun text h => ?_
      · rw [Method.run, h]
      · rw [Method.run, h]
        exact ⟨_, rfl⟩
    | _ => exact .of_free rfl _
  · rw [call_of_no_name fun m heq => h ⟨m, heq⟩]
    exact .unknown fun hmem => h (mem_methodNames.mp hmem)

/-! ### The answer -/

/-- An answer with a result. -/
def servedAnswer (id value : Json) : Json :=
  .object [("id", id), ("jsonrpc", .string "2.0"), ("result", value)]

/-- An answer with an error. -/
def refusedAnswer (id : Json) (code : Int) (message : String) : Json :=
  .object [("error", .object [("code", .ofInt code), ("message", .string message)]), ("id", id),
    ("jsonrpc", .string "2.0")]

theorem respond_fst (request : Inquiry) (e : Engine) :
    (respond request e).1 = match (call request.method request.params e).1 with
      | .ok value => servedAnswer request.id value
      | .error refusal => refusedAnswer request.id refusal.code refusal.message := by
  unfold respond
  cases call request.method request.params e with
  | mk outcome _ => cases outcome <;> rfl

/-- No method goes by what the data names as one, if it names any. -/
def Unnamed (data : Json) : Prop :=
  ∀ method ∈ methodNames, data.field? "method" ≠ some (.string method)

/-- The method that the data names needs a text, and there is none. -/
def Lacking (data : Json) : Prop :=
  ∃ method name, data.field? "method" = some (.string method) ∧
    textParameter? method = some name ∧
    ∀ text, (data.field "params").field? name ≠ some (.string text)

/-- What the answer to a request is: an object with the `id` of the request and with a result,
which is what the method gives, or else with an error, whose code says what was missing. -/
structure Answers (e : Engine) (data answer : Json) : Prop where
  form : (∃ value, answer = servedAnswer (data.field "id") value) ∨
    ∃ code message, answer = refusedAnswer (data.field "id") code message
  unknown : (∃ message, answer = refusedAnswer (data.field "id") (-32601) message) ↔ Unnamed data
  invalid : (∃ message, answer = refusedAnswer (data.field "id") (-32602) message) ↔ Lacking data
  served : (∃ value, answer = servedAnswer (data.field "id") value) ↔
    ¬ Unnamed data ∧ ¬ Lacking data
  result : ∀ value, answer = servedAnswer (data.field "id") value →
    ∃ method, data.field? "method" = some (.string method) ∧
      (call method (data.field "params") e).1 = .ok value

theorem not_unnamed_iff : ¬ Unnamed data ↔ (Inquiry.ofJson data).method ∈ methodNames := by
  have hempty : ∀ method ∈ methodNames, method ≠ "" := by decide
  constructor
  · intro h
    by_contra hother
    refine h fun method hmem hmethod => hother ?_
    rwa [(method_ofJson_eq_iff (hempty method hmem)).mpr hmethod]
  · intro hmem h
    exact h _ hmem ((method_ofJson_eq_iff (hempty _ hmem)).mp rfl)

theorem mem_methodNames_of_textParameter? (h : textParameter? method = some name) :
    method ∈ methodNames := by
  unfold textParameter? at h
  split at h
  next hmethod => rw [hmethod]; decide
  next =>
    split at h
    next hmethod => rcases hmethod with rfl | rfl <;> decide
    next => cases h

theorem lacking_iff : Lacking data ↔ ∃ name,
    textParameter? (Inquiry.ofJson data).method = some name ∧
      ∀ text, (data.field "params").field? name ≠ some (.string text) := by
  constructor
  · intro h
    obtain ⟨method, name, hmethod, hname, hlacks⟩ := h
    have hne : method ≠ "" := by
      rintro rfl
      cases hname
    rw [(method_ofJson_eq_iff hne).mpr hmethod]
    exact ⟨name, hname, hlacks⟩
  · intro h
    obtain ⟨name, hname, hlacks⟩ := h
    refine ⟨_, name, (method_ofJson_eq_iff ?_).mp rfl, hname, hlacks⟩
    intro hempty
    rw [hempty] at hname
    cases hname

theorem Lacking.not_unnamed (h : Lacking data) : ¬ Unnamed data := by
  obtain ⟨method, name, hmethod, hname, -⟩ := h
  exact fun hunnamed => hunnamed method (mem_methodNames_of_textParameter? hname) hmethod

theorem servedAnswer_ne_refusedAnswer (id value : Json) (code : Int) (message : String) :
    servedAnswer id value ≠ refusedAnswer id code message := by
  simp [servedAnswer, refusedAnswer]

theorem servedAnswer_inj {id value other : Json} :
    servedAnswer id value = servedAnswer id other ↔ value = other := by
  simp [servedAnswer]

theorem refusedAnswer_inj {id : Json} {code other : Int} {message text : String} :
    refusedAnswer id code message = refusedAnswer id other text ↔
      code = other ∧ message = text := by
  simp [refusedAnswer, Json.ofInt]

theorem Answers.of_refused {refusal : Refusal}
    (hunknown : refusal.code = -32601 ↔ Unnamed data)
    (hinvalid : refusal.code = -32602 ↔ Lacking data) (h : Unnamed data ∨ Lacking data) :
    Answers e data (refusedAnswer (data.field "id") refusal.code refusal.message) where
  form := .inr ⟨_, _, rfl⟩
  unknown := by simp [refusedAnswer_inj, hunknown]
  invalid := by simp [refusedAnswer_inj, hinvalid]
  served := by
    refine iff_of_false ?_ fun hserved => h.elim hserved.1 hserved.2
    exact fun hvalue => servedAnswer_ne_refusedAnswer _ _ _ _ hvalue.choose_spec.symm
  result := fun _ hvalue => absurd hvalue.symm (servedAnswer_ne_refusedAnswer _ _ _ _)

theorem Answers.of_served {value : Json} (hnamed : ¬ Unnamed data) (hgiven : ¬ Lacking data)
    (hmethod : data.field? "method" = some (.string method))
    (hvalue : (call method (data.field "params") e).1 = .ok value) :
    Answers e data (servedAnswer (data.field "id") value) where
  form := .inl ⟨value, rfl⟩
  unknown := by simp [servedAnswer_ne_refusedAnswer, hnamed]
  invalid := by simp [servedAnswer_ne_refusedAnswer, hgiven]
  served := iff_of_true ⟨value, rfl⟩ ⟨hnamed, hgiven⟩
  result := fun other hother => ⟨method, hmethod, servedAnswer_inj.mp hother ▸ hvalue⟩

theorem answers_respond (e : Engine) (data : Json) :
    Answers e data (respond (.ofJson data) e).1 := by
  have hverdict := verdict (Inquiry.ofJson data).method (data.field "params") e
  have hanswer : (respond (.ofJson data) e).1 =
      match (call (Inquiry.ofJson data).method (data.field "params") e).1 with
      | .ok value => servedAnswer (data.field "id") value
      | .error refusal => refusedAnswer (data.field "id") refusal.code refusal.message :=
    respond_fst (.ofJson data) e
  rw [hanswer]
  generalize houtcome : (call _ (data.field "params") e).1 = outcome at hverdict ⊢
  cases hverdict with
  | unknown h =>
    have hunnamed : Unnamed data := not_not.mp (mt not_unnamed_iff.mp h)
    have hlacking : ¬ Lacking data := fun hlacking => hlacking.not_unnamed hunnamed
    exact .of_refused (iff_of_true rfl hunnamed) (iff_of_false (by decide) hlacking) (.inl hunnamed)
  | lacking hname hlacks =>
    have hlacking := lacking_iff.mpr ⟨_, hname, hlacks⟩
    exact .of_refused (iff_of_false (by simp [Refusal.code]) hlacking.not_unnamed)
      (iff_of_true rfl hlacking) (.inr hlacking)
  | served hmem hgiven value =>
    have hnamed := not_unnamed_iff.mpr hmem
    have hlacking : ¬ Lacking data := by
      intro hlacking
      obtain ⟨name, hname, hlacks⟩ := lacking_iff.mp hlacking
      obtain ⟨text, htext⟩ := hgiven name hname
      exact hlacks text htext
    have hne : (Inquiry.ofJson data).method ≠ "" := by
      intro hempty
      rw [hempty] at hmem
      exact absurd hmem (by decide)
    exact .of_served hnamed hlacking ((method_ofJson_eq_iff hne).mp rfl) houtcome

/-! ### One line -/

theorem exchange_of_none {bytes : ByteArray} (h : Inquiry.ofBytes? bytes = none) :
    exchange bytes e = (none, e) := by
  rw [exchange, h]

theorem exchange_of_some {bytes : ByteArray} {request : Inquiry}
    (h : Inquiry.ofBytes? bytes = some request) :
    (exchange bytes e).1 = some (respond request e).1 := by
  rw [exchange, h]

theorem answerLine_eq (answer : Json) : answerLine answer = answer.text ++ "\n" :=
  String.ofList_append

/-- **One line in, at most one line out.** The first line of a connection is nothing but bytes.
If they are the UTF-8 of no text, nothing is sent and the engine stays as it is; so it does if
the text within the blanks around it is no JSON. All other lines get an answer, one line of
JSON: the result if the method that is asked for is one of the nine and has the text that it
needs, and the error for what is missing if not. -/
theorem lines_answered (e : Engine) (bytes : ByteArray) (line : List UInt8)
    (hline : IsFirstLine line bytes.toList) :
    ((∀ text, Text.bytes text ≠ line) → exchange bytes e = (none, e)) ∧
      ∀ text core, Text.bytes text = line → Text.IsCore text.toList core →
        (Json.parseChars core = none → exchange bytes e = (none, e)) ∧
        ∀ data, Json.parseChars core = some data →
          ∃ answer, (exchange bytes e).1 = some answer ∧ Answers e data answer ∧
            answerLine answer = answer.text ++ "\n" ∧ '\n' ∉ answer.text.toList := by
  refine ⟨fun h => exchange_of_none (ofBytes?_of_no_text hline h), ?_⟩
  intro text core htext hcore
  subst htext
  have hread := ofBytes?_of_text hline hcore
  constructor
  · intro hparse
    rw [hparse] at hread
    exact exchange_of_none hread
  · intro data hparse
    rw [hparse] at hread
    refine ⟨_, exchange_of_some hread, answers_respond e data, answerLine_eq _, ?_⟩
    rw [Json.text, String.toList_ofList]
    exact Json.newline_not_mem_chars _

/-- A request for a global value whose key is a number. -/
def keyless : String :=
  "\x7b\"id\": \"a\", \"method\": \"get_global\", \"params\": \x7b\"key\": 1\x7d\x7d"

/-- What follows on further lines does not count, and blanks at the end of the first do not. -/
theorem lines_answered_keyless : ∃ message,
    (exchange (keyless ++ " \n" ++ keyless).toUTF8 default).1 =
      some (refusedAnswer (.string "a") (-32602) message) := by
  have hline : IsFirstLine (Text.bytes (keyless ++ " \n"))
      (keyless ++ " \n" ++ keyless).toUTF8.toList := isFirstLine_iff.mpr (by decide +kernel)
  have hcore : Text.IsCore (keyless ++ " \n").toList keyless.toList :=
    Text.isCore_iff.mpr (by decide +kernel)
  have hfields : (Json.parseChars keyless.toList).map (fun data => ((data.field "id").string?,
      (data.field "method").string?, ((data.field "params").field "key").string?)) =
        some (some "a", some "get_global", none) := by decide +kernel
  obtain ⟨data, hdata, hfields⟩ := Option.map_eq_some_iff.mp hfields
  obtain ⟨hid, hmethod, hkey⟩ : (data.field "id").string? = some "a" ∧
      (data.field "method").string? = some "get_global" ∧
      ((data.field "params").field "key").string? = none := by simpa using hfields
  have hlacking : Lacking data := by
    refine ⟨"get_global", "key", string?_field_eq_some_iff.mp hmethod, rfl, fun text htext => ?_⟩
    rw [← string?_field_eq_some_iff, hkey] at htext
    cases htext
  have hsame : data.field "id" = .string "a" := by
    rw [Json.field, string?_field_eq_some_iff.mp hid]
    rfl
  have hread := (lines_answered default _ _ hline).2 _ _ rfl hcore
  obtain ⟨answer, hsent, hanswer, -⟩ := hread.2 data hdata
  obtain ⟨message, hmessage⟩ := hanswer.invalid.mpr hlacking
  exact ⟨message, by rw [hsent, hmessage, hsame]⟩

end SharedViews.Inspection
