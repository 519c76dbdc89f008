import KeyLifecycle.Error

/-! How errors are made up of layers, and what can be seen of one after any number of wraps. -/
namespace KeyLifecycle

inductive Heading where
  | text (message : String)
  | code (c : Code)

namespace Heading

def message : Heading → String
  | text m => m
  | code c => c.name

end Heading

/-- The layers of an error, the outermost first. -/
inductive Report where
  | code (c : Code)
  | text (message : String)
  | unreadable (fault : Json.Fault)
  | headed (h : Heading) (rest : Report)
  /-- A report that is closed up in an error. Its texts are the error's own. -/
  | enclosed (rest : Report)

namespace Report

def texts : Report → List String
  | code c => [c.name]
  | text m => [m]
  | unreadable fault => [fault.message]
  | headed h rest => h.message :: rest.texts
  | enclosed rest => rest.texts

/-- The first code on the way in. A heading lets one look further, a closed-up report does not. -/
def code? : Report → Option Code
  | code c | headed (.code c) _ => some c
  | headed (.text _) rest => rest.code?
  | text _ | unreadable _ | enclosed _ => none

end Report

namespace Wrap

def heading : Wrap → Heading
  | context m | report m => .text m
  | code c => .code c

theorem message_heading (w : Wrap) : w.heading.message = w.message := by cases w <;> rfl

theorem code?_headed (w : Wrap) (r : Report) :
    (Report.headed w.heading (.enclosed r)).code? = w.code? := by
  cases w <;> rfl

end Wrap

namespace Error
variable {e : Error} {root shown : String} {found : Option Code}

def toReport : Error → Report
  | code c => .code c
  | detailed c m => .headed (.text m) (.code c)
  | text m => .text m
  | unreadable fault => .headed (.code .serializationError) (.unreadable fault)
  | wrapped inner w => .headed w.heading (.enclosed inner.toReport)

theorem texts_wrapped (e : Error) (w : Wrap) :
    (e.wrapped w).toReport.texts = w.message :: e.toReport.texts :=
  congrArg (· :: e.toReport.texts) w.message_heading

theorem head?_texts (e : Error) : e.toReport.texts.head? = some e.message := by
  cases e with
  | wrapped inner w => rw [texts_wrapped]; rfl
  | code c | detailed c m | text m | unreadable fault => rfl

theorem getLast?_texts (e : Error) : e.toReport.texts.getLast? = some e.root := by
  induction e with
  | wrapped inner w ih => rw [texts_wrapped, List.getLast?_cons, ih]; rfl
  | code c | detailed c m | text m | unreadable fault => rfl

theorem code?_toReport (e : Error) : e.toReport.code? = e.code? := by
  cases e with
  | wrapped inner w => exact w.code?_headed inner.toReport
  | code c | detailed c m | text m | unreadable fault => rfl

theorem wrapAll_cons (e : Error) (w : Wrap) (ws : List Wrap) :
    e.wrapAll (w :: ws) = (e.wrapped w).wrapAll ws := rfl

theorem texts_wrapAll (e : Error) (ws : List Wrap) :
    (e.wrapAll ws).toReport.texts = (ws.map Wrap.message).reverse ++ e.toReport.texts := by
  induction ws generalizing e with
  | nil => rfl
  | cons w ws ih =>
    rw [wrapAll_cons, ih, texts_wrapped, List.map_cons, List.reverse_cons, List.append_assoc]
    rfl

theorem message_wrapAll (e : Error) (ws : List Wrap) :
    (e.wrapAll ws).message = (ws.getLast?.map Wrap.message).getD e.message := by
  have first := head?_texts (e.wrapAll ws)
  rw [texts_wrapAll, List.head?_append, List.head?_reverse, List.getLast?_map, head?_texts] at first
  cases h : ws.getLast? <;> simp_all

theorem root_wrapAll (e : Error) (ws : List Wrap) : (e.wrapAll ws).root = e.root := by
  have last := getLast?_texts (e.wrapAll ws)
  rw [texts_wrapAll, List.getLast?_append, getLast?_texts] at last
  exact (Option.some.inj last).symm

theorem code?_wrapAll (e : Error) (ws : List Wrap) :
    (e.wrapAll ws).code? = ws.foldl (fun _ w => w.code?) e.code? := by
  induction ws generalizing e with
  | nil => rfl
  | cons w ws ih => rw [wrapAll_cons, ih]; rfl

theorem is_iff {c : Code} : e.is c = true ↔ e.code? = some c := beq_iff_eq

/-- An error that is not wrapped, with its root, the text that it shows and its code. -/
inductive Starts : Error → String → String → Option Code → Prop where
  | code (c : Code) : Starts (.code c) c.name c.name (some c)
  | detailed (c : Code) (m : String) : Starts (.detailed c m) c.name m (some c)
  | text (m : String) : Starts (.text m) m m none
  | unreadable (fault : Json.Fault) : Starts (.unreadable fault) fault.message
      Code.serializationError.name (some .serializationError)

theorem Starts.eqs (h : e.Starts root shown found) :
    e.root = root ∧ e.message = shown ∧ e.code? = found := by
  cases h <;> exact ⟨rfl, rfl, rfl⟩

/-- Of all that an error is wrapped in, the last text is what it shows and the last wrap decides
about its code; its root stays, and the texts in between are all there in their order. -/
theorem wrapAll_seen (h : e.Starts root shown found) (ws : List Wrap) :
    let text := (ws.getLast?.map Wrap.message).getD shown
    (e.wrapAll ws).message = text ∧
    (e.wrapAll ws).toResponse = ⟨root, text⟩ ∧
    (e.wrapAll ws).code? = ws.foldl (fun _ w => match w with
      | .context _ | .report _ => none
      | .code c => some c) found ∧
    (∀ c, (e.wrapAll ws).is c = true ↔ (e.wrapAll ws).code? = some c) ∧
    (e.wrapAll ws).toReport.texts = (ws.map Wrap.message).reverse ++ e.toReport.texts ∧
    (e.wrapAll ws).toReport.code? = (e.wrapAll ws).code? := by
  obtain ⟨hroot, hshown, hfound⟩ := h.eqs
  intro text
  have message : (e.wrapAll ws).message = text := by rw [message_wrapAll, hshown]
  refine ⟨message, ?_, ?_, fun c => is_iff, texts_wrapAll e ws, code?_toReport _⟩
  · rw [toResponse, root_wrapAll, hroot, message]
  · rw [code?_wrapAll, hfound]
    rfl

theorem wrapAll_seen_coded :
    let e : Error := .detailed .invalidState "it is rotated"
    let ws : List Wrap := [.report "no successor", .code .storeFailure]
    e.Starts "invalid_state" "it is rotated" (some .invalidState) ∧
    (e.wrapAll ws).toResponse = ⟨"invalid_state", "store_failure"⟩ ∧
    (e.wrapAll ws).code? = some .storeFailure ∧
    (e.wrapAll ws).toReport.texts =
      ["store_failure", "no successor", "it is rotated", "invalid_state"] := by
  intro e ws
  have starts : e.Starts "invalid_state" "it is rotated" (some .invalidState) := .detailed _ _
  obtain ⟨-, response, code, -, texts, -⟩ := wrapAll_seen starts ws
  exact ⟨starts, response, code, texts⟩

/-- A report that is made of an error does not keep its code. -/
theorem code?_report_lost :
    let e : Error := .code .notFound
    let ws : List Wrap := [.report "no successor"]
    e.Starts "not_found" "not_found" (some .notFound) ∧
    (e.wrapAll ws).code? ≠ ws.foldl (fun found w => match w with
      | .context _ => none
      | .report _ => found
      | .code c => some c) (some .notFound) := by
  intro e ws
  have lost : (e.wrapAll ws).code? = none := rfl
  exact ⟨.code .notFound, lost ▸ nofun⟩

end Error
end KeyLifecycle
