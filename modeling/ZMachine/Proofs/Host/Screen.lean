import Mathlib.Data.List.DropRight
import ZMachine.Host.Screen

/-!
# A screen loses no text

A screen keeps its text as finished lines and the line being written, and puts them together again
when it is asked for everything written. `Screen.written` tells from the requests alone what that
has to be: the texts since the screen was last erased, one after the other. `Screen.Shows` ties a
screen to a text. It says that the lines make up the text and that no line end is hidden inside a
line, which together determine the lines. Each request keeps it, so it holds after any sequence of
requests.
-/

namespace ZMachine

namespace Request

/-- The text that a request adds to a screen. -/
def text : Request → String
  | print text => text
  | newLine => "\n"
  | _ => ""

/-- Whether a request makes a screen forget its text. -/
def erases : Request → Bool
  | eraseWindow window => window ≤ 0
  | _ => false

end Request

namespace Screen

/-- What a sequence of requests does to the screen. -/
def handleAll (screen : Screen) (requests : List Request) : Screen :=
  requests.foldl handle screen

/-- The text of the requests that were made since the text was last erased. -/
def written (requests : List Request) : String :=
  String.join ((requests.rtakeWhile fun request => !request.erases).map Request.text)

/-- The pieces between the line ends of a text, of which there is one more than there are line ends.
-/
def linesOf (text : String) : List String :=
  (text.split '\n').toList.map String.Slice.copy

theorem handleAll_append (screen : Screen) (first second : List Request) :
    screen.handleAll (first ++ second) = (screen.handleAll first).handleAll second :=
  List.foldl_append

theorem written_append (requests : List Request) (request : Request) :
    written (requests ++ [request]) =
      if request.erases then "" else written requests ++ request.text := by
  unfold written
  rw [List.rtakeWhile_concat]
  cases request.erases with
  | true => rfl
  | false => simp [String.join_append]

/-- Everything written is the lines with line ends between them. -/
theorem output_eq_intercalate (screen : Screen) :
    screen.output = "\n".intercalate (screen.lines.toList ++ [screen.current]) := by
  unfold output
  induction screen.lines.toList with
  | nil => simp
  | cons line lines ih =>
      rw [List.map_cons, String.join_cons, String.append_assoc, ih, List.cons_append,
        String.intercalate_cons_of_ne_nil (by simp)]

theorem handle_of_erases (screen : Screen) {request : Request} (erases : request.erases = true) :
    (screen.handle request).lines = #[] ∧ (screen.handle request).current = "" := by
  cases request with
  | eraseWindow window =>
      have all : window ≤ 0 := of_decide_eq_true erases
      unfold handle
      dsimp only
      rw [if_pos all]
      split <;> exact ⟨rfl, rfl⟩
  | _ => cases erases

/-- A request that neither adds text nor erases it leaves the lines as they are. -/
theorem handle_of_silent (screen : Screen) {request : Request} (keeps : request.erases = false)
    (silent : request.text = "") :
    (screen.handle request).lines = screen.lines ∧
      (screen.handle request).current = screen.current := by
  cases request with
  | print text =>
      have empty : text = "" := silent
      rw [empty]
      exact ⟨rfl, rfl⟩
  | newLine => simp [Request.text] at silent
  | eraseWindow window =>
      have upper : ¬ window ≤ 0 := of_decide_eq_false keeps
      have notAll : window ≠ -1 := by omega
      unfold handle
      dsimp only
      rw [if_neg upper, if_neg notAll]
      exact ⟨rfl, rfl⟩
  | _ => exact ⟨rfl, rfl⟩

/-- The screen shows the text, and each of its lines is a single line. -/
structure Shows (screen : Screen) (text : String) : Prop where
  output : screen.output = text
  finished : ∀ line ∈ screen.lines.toList, '\n' ∉ line.toList
  current : '\n' ∉ screen.current.toList

namespace Shows

variable {screen : Screen} {text : String}

/-- The lines of a screen are determined by the text that it shows. Cutting undoes joining because no
line has a line end inside. -/
theorem lines_eq (shows : screen.Shows text) :
    screen.lines.toList ++ [screen.current] = linesOf text := by
  have single : ∀ line ∈ screen.lines.toList ++ [screen.current], '\n' ∉ line.toList := by
    rw [List.forall_mem_append, List.forall_mem_singleton]
    exact ⟨shows.finished, shows.current⟩
  have cut := String.toList_split_intercalate single
  rw [if_neg (by simp)] at cut
  rw [← shows.output, output_eq_intercalate]
  exact cut.symm

/-- Only the lines count, and not how the windows are arranged. -/
theorem of_same {other : Screen} (shows : screen.Shows text) (lines : other.lines = screen.lines)
    (current : other.current = screen.current) : other.Shows text where
  output := by
    rw [← shows.output, Screen.output, lines, current, Screen.output]
  finished := by
    rw [lines]
    exact shows.finished
  current := by
    rw [current]
    exact shows.current

theorem clear (screen : Screen) : screen.clear.Shows "" :=
  ⟨rfl, by simp [Screen.clear], by simp [Screen.clear]⟩

theorem finishLine (shows : screen.Shows text) : screen.finishLine.Shows (text ++ "\n") where
  output := by
    simp [← shows.output, Screen.finishLine, Screen.output, String.join_append, String.append_assoc]
  finished := by
    rw [Screen.finishLine, Array.toList_push, List.forall_mem_append, List.forall_mem_singleton]
    exact ⟨shows.finished, shows.current⟩
  current := by simp [Screen.finishLine]

theorem put (shows : screen.Shows text) (c : Char) :
    (screen.put c).Shows (text ++ String.singleton c) := by
  unfold Screen.put
  split
  · rename_i ends
    rw [beq_iff_eq.mp ends]
    exact shows.finishLine
  · rename_i inside
    refine ⟨?_, shows.finished, ?_⟩
    · rw [← shows.output, Screen.output, Screen.output, String.push_eq_append, String.append_assoc]
    · rw [String.toList_push, List.mem_append, List.mem_singleton]
      rintro (before | rfl)
      · exact shows.current before
      · exact inside rfl

theorem foldl_put (chars : List Char) (shows : screen.Shows text) :
    (chars.foldl Screen.put screen).Shows (text ++ String.ofList chars) := by
  induction chars generalizing screen text with
  | nil => simpa using shows
  | cons c chars ih =>
      have later := ih (shows.put c)
      rwa [String.append_assoc, ← String.ofList_cons] at later

theorem print (shows : screen.Shows text) (addition : String) :
    (screen.print addition).Shows (text ++ addition) := by
  have after := shows.foldl_put addition.toList
  rwa [String.ofList_toList] at after

/-- A request adds its text, unless it erases what there is. -/
theorem handle (shows : screen.Shows text) (request : Request) :
    (screen.handle request).Shows (if request.erases then "" else text ++ request.text) := by
  split
  · rename_i erases
    rcases handle_of_erases screen erases with ⟨lines, current⟩
    exact (clear screen).of_same lines current
  · rename_i keeps
    by_cases silent : request.text = ""
    · rcases handle_of_silent screen (Bool.eq_false_iff.mpr keeps) silent with ⟨lines, current⟩
      rw [silent, String.append_empty]
      exact shows.of_same lines current
    · cases request with
      | print addition => exact shows.print addition
      | newLine => exact shows.finishLine
      | _ => exact absurd rfl silent

end Shows

theorem shows_handleAll (requests : List Request) :
    (({} : Screen).handleAll requests).Shows (written requests) := by
  induction requests using List.reverseRec with
  | nil => exact .clear {}
  | append_singleton requests request ih =>
      rw [handleAll_append, written_append]
      exact ih.handle request

/-- Printing several texts comes to printing them as one. -/
theorem handleAll_print (screen : Screen) (texts : List String) :
    screen.handleAll (texts.map .print) = screen.handle (.print (String.join texts)) := by
  rw [handleAll, List.foldl_map, handle, print, String.toList_join, List.foldl_flatMap]
  rfl

theorem handle_print_newLine (screen : Screen) :
    screen.handle (.print "\n") = screen.handle .newLine :=
  rfl

/-- A screen loses no text. Whatever is asked of a new screen, everything written is the texts and
line ends since it was last erased, and the finished lines are the pieces of that text but for the
last one, which is the line being written. It does not matter into how many texts something is cut
for printing, nor whether a line is ended by printing a line end. Requests that neither add text nor
erase it leave it alone. -/
theorem text_is_kept (requests : List Request) :
    let screen := ({} : Screen).handleAll requests
    screen.output = written requests ∧
    screen.lines.toList = (linesOf (written requests)).dropLast ∧
    (linesOf (written requests)).getLast? = some screen.current ∧
    (∀ texts later, (screen.handleAll (texts.map .print)).handleAll later =
      (screen.handle (.print (String.join texts))).handleAll later) ∧
    (∀ later, (screen.handle (.print "\n")).handleAll later =
      (screen.handle .newLine).handleAll later) ∧
    ∀ request : Request, request.erases = false → request.text = "" →
      (screen.handle request).output = screen.output ∧
      (screen.handle request).lines = screen.lines := by
  intro screen
  have shows := shows_handleAll requests
  refine ⟨shows.output, ?_, ?_, ?_, ?_, ?_⟩
  · rw [← shows.lines_eq, List.dropLast_concat]
  · rw [← shows.lines_eq, List.getLast?_concat]
  · intro texts later
    rw [handleAll_print]
  · intro later
    rw [handle_print_newLine]
  · intro request keeps silent
    rcases handle_of_silent screen keeps silent with ⟨lines, current⟩
    exact ⟨by rw [output, lines, current, output], lines⟩

/-- Erasing the whole screen forgets what was written, and erasing the upper window does not. A line
may be empty. -/
theorem text_is_kept_erased :
    let requests : List Request :=
      [.print "lost\n", .eraseWindow (-1), .print "West of House\n", .newLine, .print "You are ",
        .print "standing\nin an open field."]
    let screen := ({} : Screen).handleAll requests
    Request.erases (.eraseWindow 1) = false ∧ Request.text (.eraseWindow 1) = "" ∧
      (screen.handle (.eraseWindow 1)).output =
        "West of House\n\nYou are standing\nin an open field." ∧
      (screen.handle (.eraseWindow 1)).lines =
        #["West of House", "", "You are standing"] := by
  intro requests screen
  rcases text_is_kept requests with ⟨same, _, _, _, _, others⟩
  rcases others (.eraseWindow 1) rfl rfl with ⟨output, lines⟩
  refine ⟨rfl, rfl, ?_, ?_⟩
  · rw [output, same]
    decide +kernel
  · rw [lines]
    decide +kernel

end Screen

end ZMachine
