import Oxbin.CodeMirror.ChangeSet
import Oxbin.CodeMirror.Text
import Oxbin.Live.Handles

/-!
# Opening an editor

A browser opens an editor on the content that the server sends.  The server checks the start of a
change set against the UTF-16 length of that content, the editor counts its own document, in which
every line break is one unit.
-/

namespace Oxbin.Browser

open Livecollab Live

/-- The part of an `EditorState` that the collaboration extension and the text make up. -/
structure EditorState where
  doc : List UInt16
  startVersion : Int
  clientID : String
  deriving DecidableEq

/-- `makeLiveEditorState`. -/
def makeLiveEditorState (document : DocumentSnapshot) (clientID : String) : EditorState where
  doc := CodeMirror.breakLines (utf16Units document.content)
  startVersion := document.currentRevision
  clientID := clientID

/-- The hub expects the change sets that a new editor makes: they start at the length that it has
for the revision of the editor. -/
def Expected (document : Document) (editor : EditorState) : Prop :=
  ∀ changes : CodeMirror.ChangeSet UInt16, changes.length = editor.doc.length →
    document.lengthAt editor.startVersion = some changes.length

/-- For every document of the server, the hub's length is that of a new editor, and the hub expects
what the editor makes, if and only if the content has no `\r` directly in front of a `\n`. -/
theorem lengths_agree (document : Document) (clientID : String) :
    (utf16Len document.snapshot.content =
        (makeLiveEditorState document.snapshot clientID).doc.length ∧
      Expected document (makeLiveEditorState document.snapshot clientID)) ↔
    ¬CodeMirror.HasBreakPair (utf16Units document.snapshot.content) := by
  have current : document.lengthAt (makeLiveEditorState document.snapshot clientID).startVersion =
      some (utf16Len document.snapshot.content) := if_pos rfl
  rw [← CodeMirror.length_breakLines_eq_iff]
  constructor
  · rintro ⟨same, _⟩
    exact (Int.ofNat_inj.mp same).symm
  · intro same
    have lengths : utf16Len document.snapshot.content =
        (makeLiveEditorState document.snapshot clientID).doc.length := congrArg Nat.cast same.symm
    refine ⟨lengths, fun changes starts => ?_⟩
    rw [current, lengths, starts]

/-- A participant joins the small room and writes a line break of two units. -/
def smallBreak : List Action :=
  [smallJoin "ann" "page" [] 2,
    ⟨.request (Stage.smallSession "ann" "page" 1 false) (.submitDocument
      ⟨"op1", "ann", "main", 0, ⟨[⟨0, 2, "\r\n"⟩, ⟨2, -1, ""⟩]⟩⟩), unixTime 3, false⟩]

/-- The document of the small room after a line break of two units is stored. -/
def smallBroken : Option Document :=
  (@Stage.run sampleHost (smallStage defaultHubOptions) smallBreak).authority.room.documents.lookup
    "main"

/-- The hub takes the line break for two units and the editor for one. -/
theorem lengths_agree_break :
    @Stage.Possible sampleHost (smallStage defaultHubOptions) smallBreak ∧
      smallBroken.map (fun document => (document.snapshot.content,
        utf16Len document.snapshot.content,
        (makeLiveEditorState document.snapshot "ann").doc.length)) = some ("\r\nab", 4, 3) := by
  refine ⟨⟨trivial, ⟨by decide +kernel, .arr [.arr [.num 0, .str "\r", .str ""], .num 2], ?_⟩,
    trivial⟩, ?_⟩
  all_goals decide +kernel

end Oxbin.Browser
