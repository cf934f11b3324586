import Rendezvous.Proofs.Text.Splitting
import Rendezvous.Shell.Command

/-!
# How a shell reads the scripts of commands

A shell goes through a script character by character, and what it has gone through decides what
the next character means. The reader here knows commands, remarks, double-quoted words and the
command substitutions inside them. It refuses a script with anything else, so a script that it
reads has none of it: no single quotes, no backslash outside double quotes, no parameter or
backquote expansion, no here-document.

A value that is escaped between double quotes reads as itself, wherever these quotes stand. So in
the scripts of commands each value is one part of one double-quoted word, and all else is the same
for all values.
-/

namespace Rendezvous

namespace Shell

/-! ## Reading a script -/

/-- Where in a script a character stands. -/
inductive Place where
  /-- Outside quotes, where a word can begin; a number sign begins a remark there. -/
  | gap
  /-- Outside quotes, within a word. -/
  | bare
  /-- In a remark, which ends with its line. -/
  | remark
  /-- Between double quotes. -/
  | quoted
  /-- Between double quotes, after a backslash that quotes what comes next. -/
  | backslash
  /-- Between double quotes, after a dollar sign that begins an expansion. -/
  | dollar
deriving DecidableEq, Repr

/-- What a shell makes of a script, piece by piece. -/
inductive Mark where
  /-- A character of a command, outside quotes. -/
  | code (c : Char)
  /-- A double-quoted word begins. -/
  | opening
  /-- A character of a double-quoted word, which stands for itself. -/
  | literal (c : Char)
  /-- A double-quoted word ends. -/
  | closing
  /-- Commands begin whose output is a part of the double-quoted word. -/
  | substitution
  /-- These commands end, and the word goes on. -/
  | resumption
deriving DecidableEq, Repr

/-- A character outside quotes after which a new word can begin. -/
def endsWord (c : Char) : Bool :=
  c == ' ' || c == '\t' || c == '\n' || c == ';' || c == '|' || c == '&' || c == '>'

/-- A character that the reader does not know outside quotes. -/
def isUnknown (c : Char) : Bool :=
  c == '\'' || c == '\\' || c == '$' || c == '\x60' || c == '(' || c == '<'

/-- Go on by one character, from a place with so many substitutions around it. -/
def step? : Place × Nat → Char → Option (List Mark × (Place × Nat))
  | (.quoted, n), c =>
    if c = '"' then some ([.closing], .bare, n)
    else if c = '\\' then some ([], .backslash, n)
    else if c = '$' then some ([], .dollar, n)
    else if c = '\x60' then none
    else some ([.literal c], .quoted, n)
  | (.backslash, n), c =>
    if isSpecial c then some ([.literal c], .quoted, n)
    else if c = '\n' then some ([], .quoted, n)
    else some ([.literal '\\', .literal c], .quoted, n)
  | (.dollar, n), c => if c = '(' then some ([.substitution], .gap, n + 1) else none
  | (.remark, n), c => some (if c = '\n' then ([.code c], .gap, n) else ([], .remark, n))
  | (place, n), c =>
    if c = '"' then some ([.opening], .quoted, n)
    else if c = '#' && place == .gap then some ([], .remark, n)
    else if c = ')' then
      match n with
      | 0 => none
      | n + 1 => some ([.resumption], .quoted, n)
    else if isUnknown c then none
    else some ([.code c], if endsWord c then .gap else .bare, n)

/-- Read a part of a script: what it is, and the place after it. -/
def scan : Place × Nat → List Char → Option (List Mark × (Place × Nat))
  | s, [] => some ([], s)
  | s, c :: cs => do
    let (marks, s) ← step? s c
    let (more, s) ← scan s cs
    return (marks ++ more, s)

/-- Read a script. It must not end inside quotes or inside a substitution. -/
def read? (script : String) : Option (List Mark) :=
  match scan (.gap, 0) script.toList with
  | some (marks, .gap, 0) | some (marks, .bare, 0) | some (marks, .remark, 0) => some marks
  | _ => none

/-! ## What is read -/

/-- Commands as they are written. -/
def code (s : String) : List Mark := s.toList.map .code

/-- A text that stands for itself between double quotes. -/
def literal (s : String) : List Mark := s.toList.map .literal

/-- A double-quoted word. -/
def word (marks : List Mark) : List Mark := .opening :: (marks ++ [.closing])

/-- The output of commands inside a double-quoted word. -/
def output (marks : List Mark) : List Mark := .substitution :: (marks ++ [.resumption])

@[simp] theorem literal_append (s t : String) : literal (s ++ t) = literal s ++ literal t := by
  simp [literal]

/-! ## Escaped values -/

theorem ne_of_not_isSpecial {c : Char} (h : ¬isSpecial c = true) :
    c ≠ '"' ∧ c ≠ '\\' ∧ c ≠ '$' ∧ c ≠ '\x60' := by
  simpa [isSpecial, and_assoc] using h

/-- A value that is escaped reads as itself up to its closing quote. -/
theorem readQuoted_escape (value rest : List Char) :
    readQuoted (escapeChars value ++ '"' :: rest) = .word value rest := by
  induction value with
  | nil => rfl
  | cons c cs ih =>
    by_cases hc : isSpecial c = true
    · simp [escapeChars, hc, readQuoted, ih, Reading.cons]
    · obtain ⟨hquote, hbackslash, hdollar, hbackquote⟩ := ne_of_not_isSpecial hc
      simp [escapeChars, hc, readQuoted, ih, Reading.cons, hbackslash]

/-- A part of a script reads as `marks`, from one place to another. -/
def Scans (s : Place × Nat) (cs : List Char) (marks : List Mark) (s' : Place × Nat) : Prop :=
  scan s cs = some (marks, s')

instance (s : Place × Nat) (cs : List Char) (marks : List Mark) (s' : Place × Nat) :
    Decidable (Scans s cs marks s') :=
  inferInstanceAs (Decidable (scan s cs = some (marks, s')))

namespace Scans

variable {s s' s'' : Place × Nat} {cs ds : List Char} {marks more : List Mark} {c : Char}

theorem cons (h : Scans s' cs more s'') (hstep : step? s c = some (marks, s')) :
    Scans s (c :: cs) (marks ++ more) s'' := by
  unfold Scans at h ⊢
  simp [scan, hstep, h]

theorem append (h : Scans s cs marks s') (h' : Scans s' ds more s'') :
    Scans s (cs ++ ds) (marks ++ more) s'' := by
  induction cs generalizing s marks with
  | nil =>
    obtain ⟨rfl, rfl⟩ := Prod.mk.inj (Option.some.inj h)
    exact h'
  | cons c cs ih =>
    simp only [Scans, scan, Option.bind_eq_bind, Option.bind_eq_some_iff, Option.pure_def,
      Option.some.injEq, Prod.mk.injEq] at h
    obtain ⟨⟨first, s₁⟩, hstep, ⟨rest, s₂⟩, hrest, rfl, rfl⟩ := h
    rw [List.cons_append, List.append_assoc]
    exact (ih hrest).cons hstep

/-- A value that is escaped between double quotes reads as itself. -/
theorem escapeChars (n : Nat) (value : List Char) :
    Scans (.quoted, n) (escapeChars value) (value.map .literal) (.quoted, n) := by
  induction value with
  | nil => rfl
  | cons c cs ih =>
    by_cases hc : isSpecial c = true
    · have hslash : step? (.quoted, n) '\\' = some ([], .backslash, n) := rfl
      have hstep : step? (.backslash, n) c = some ([.literal c], .quoted, n) := by
        simp [step?, hc]
      rw [Shell.escapeChars, if_pos hc]
      exact (ih.cons hstep).cons hslash
    · obtain ⟨hquote, hbackslash, hdollar, hbackquote⟩ := ne_of_not_isSpecial hc
      have hstep : step? (.quoted, n) c = some ([.literal c], .quoted, n) := by
        simp [step?, hquote, hbackslash, hdollar, hbackquote]
      rw [Shell.escapeChars, if_neg hc]
      exact ih.cons hstep

theorem field (n : Nat) (value : String) :
    Scans (.quoted, n) (Piece.field value).render.toList (literal value) (.quoted, n) := by
  have h := escapeChars n value.toList
  rwa [← @String.toList_ofList (Shell.escapeChars value.toList)] at h

end Scans

theorem exists_word_of_cons {r : Reading} {c : Char} {value rest : List Char}
    (h : r.cons c = .word value rest) : ∃ more, r = .word more rest ∧ value = c :: more := by
  cases r with
  | word more rest' =>
    obtain ⟨rfl, rfl⟩ := Reading.word.inj h
    exact ⟨more, rfl, rfl⟩
  | expansion => exact absurd h (by simp [Reading.cons])
  | unclosed => exact absurd h (by simp [Reading.cons])

/-- The two readers agree: what is read as one word alone is read as that word in a script. -/
theorem scans_of_readQuoted (n : Nat) {cs value rest : List Char}
    (h : readQuoted cs = .word value rest) :
    ∃ used, cs = used ++ rest ∧
      Scans (.quoted, n) used (value.map .literal ++ [.closing]) (.bare, n) := by
  have hslash : step? (.quoted, n) '\\' = some ([], .backslash, n) := rfl
  induction cs using readQuoted.induct generalizing value with
  | case1 => exact absurd h (by simp [readQuoted])
  | case2 rest' =>
    obtain ⟨rfl, rfl⟩ := Reading.word.inj (by simpa [readQuoted] using h)
    exact ⟨['"'], rfl, rfl⟩
  | case3 => exact absurd h (by simp [readQuoted])
  | case4 => exact absurd h (by simp [readQuoted])
  | case5 => exact absurd h (by simp [readQuoted])
  | case6 c cs hc ih =>
    rw [readQuoted, if_pos hc] at h
    obtain ⟨more, hmore, rfl⟩ := exists_word_of_cons h
    obtain ⟨used, rfl, hused⟩ := ih hmore
    have hstep : step? (.backslash, n) c = some ([.literal c], .quoted, n) := by simp [step?, hc]
    have hword := (hused.cons hstep).cons hslash
    exact ⟨'\\' :: c :: used, rfl, hword⟩
  | case7 cs hc ih =>
    rw [readQuoted, if_neg hc, if_pos rfl] at h
    obtain ⟨used, rfl, hused⟩ := ih h
    have hline : step? (.backslash, n) '\n' = some ([], .quoted, n) := rfl
    have hword := (hused.cons hline).cons hslash
    exact ⟨'\\' :: '\n' :: used, rfl, hword⟩
  | case8 c cs hc hline ih =>
    rw [readQuoted, if_neg hc, if_neg hline] at h
    obtain ⟨_, hcons, rfl⟩ := exists_word_of_cons h
    obtain ⟨more, hmore, rfl⟩ := exists_word_of_cons hcons
    obtain ⟨used, rfl, hused⟩ := ih hmore
    have hstep : step? (.backslash, n) c = some ([.literal '\\', .literal c], .quoted, n) := by
      simp [step?, hc, hline]
    have hword := (hused.cons hstep).cons hslash
    exact ⟨'\\' :: c :: used, rfl, hword⟩
  | case9 c cs hquote hdollar hbackquote hlast hbackslash ih =>
    have hplain : c ≠ '\\' := by
      rintro rfl
      cases cs with
      | nil => exact hlast rfl rfl
      | cons d cs => exact hbackslash d cs rfl rfl
    have hstep : step? (.quoted, n) c = some ([.literal c], .quoted, n) := by
      simp [step?, show c ≠ '"' from hquote, hplain, show c ≠ '$' from hdollar,
        show c ≠ '\x60' from hbackquote]
    have hrest : readQuoted (c :: cs) = (readQuoted cs).cons c := by
      rw [readQuoted] <;> assumption
    rw [hrest] at h
    obtain ⟨more, hmore, rfl⟩ := exists_word_of_cons h
    obtain ⟨used, rfl, hused⟩ := ih hmore
    exact ⟨c :: used, rfl, hused.cons hstep⟩

theorem toList_render (pieces : List Piece) :
    (render pieces).toList = pieces.flatMap fun p => p.render.toList := by
  have hjoin : ∀ (ss : List String) (s : String), (ss.foldl (· ++ ·) s).toList =
      s.toList ++ ss.flatMap String.toList := by
    intro ss
    induction ss with
    | nil => simp
    | cons t ss ih => intro s; simp [ih]
  simp [render, String.join, hjoin, List.flatMap_map]

end Shell

open Shell

namespace Command

/-! ## The scripts of commands -/

/-- What the script of `writeFile` is to a shell. -/
def writeFileReading (content path : String) : List Mark :=
  code "\nmkdir -p " ++ word (output (code "dirname " ++ word (literal path))) ++
    code "\necho -n " ++ word (literal content) ++ code " > " ++ word (literal path) ++
    code "\ncat " ++ word (literal path)

/-- What the script of `envVarFile` is to a shell. -/
def envVarFileReading (value : String) (nodeType : NodeType) : List Mark :=
  code "\necho -n " ++ word (literal value) ++ code " > " ++ word (literal (envVarPath nodeType))

/-- What the script of `appendTrustedPeer` is to a shell, for a directory without slashes at its
end. -/
def appendTrustedPeerReading (address dir : String) : List Mark :=
  code "\nmkdir -p " ++ word (literal dir) ++
    code "\nif [ ! -f " ++ word (literal (dir ++ "/TRUSTED_PEERS")) ++
    code " ]; then\n  if [ -f " ++ word (literal trustedPeerFile) ++
    code " ]; then\n    cp " ++ word (literal trustedPeerFile) ++ code " " ++
    word (literal (dir ++ "/TRUSTED_PEERS")) ++
    code "\n  else\n    touch " ++ word (literal (dir ++ "/TRUSTED_PEERS")) ++
    code "\n  fi\nfi\n" ++
    code "\ngrep -qF " ++ word (literal address) ++ code " " ++
    word (literal (dir ++ "/TRUSTED_PEERS")) ++
    code " || echo -n " ++ word (literal ("," ++ address)) ++ code " >> " ++
    word (literal (dir ++ "/TRUSTED_PEERS")) ++
    code "\ncat " ++ word (literal (dir ++ "/TRUSTED_PEERS"))

theorem scans_writeFile (content path : String) :
    Scans (.gap, 0) (writeFile content path).script.toList
      (writeFileReading content path) (.bare, 0) := by
  have hdir : Scans (.gap, 0) "#!/bin/sh\nmkdir -p \"$(dirname \"".toList
      (code "\nmkdir -p " ++ .opening :: .substitution :: code "dirname " ++ [.opening])
      (.quoted, 1) := rfl
  have hcontent : Scans (.quoted, 1) "\")\"\necho -n \"".toList
      (.closing :: .resumption :: .closing :: code "\necho -n " ++ [.opening])
      (.quoted, 0) := rfl
  have hfile : Scans (.quoted, 0) "\" > \"".toList (.closing :: code " > " ++ [.opening])
      (.quoted, 0) := rfl
  have hcat : Scans (.quoted, 0) "\"\ncat \"".toList (.closing :: code "\ncat " ++ [.opening])
      (.quoted, 0) := rfl
  have hend : Scans (.quoted, 0) "\"".toList [.closing] (.bare, 0) := rfl
  have h := hdir.append <| (Scans.field 1 path).append <| hcontent.append <|
    (Scans.field 0 content).append <| hfile.append <| (Scans.field 0 path).append <| hcat.append <|
    (Scans.field 0 path).append hend
  simpa [script, toList_render, pieces, writeFileReading, word, output, Piece.render] using h

theorem scans_envVarFile (value : String) (nodeType : NodeType) :
    Scans (.gap, 0) (envVarFile value nodeType).script.toList
      (envVarFileReading value nodeType) (.bare, 0) := by
  have hecho : Scans (.gap, 0) "#!/bin/sh\necho -n \"".toList (code "\necho -n " ++ [.opening])
      (.quoted, 0) := rfl
  have hfile : Scans (.quoted, 0) "\" > \"".toList (.closing :: code " > " ++ [.opening])
      (.quoted, 0) := rfl
  have hpath : Scans (.quoted, 0) (envVarPath nodeType).toList (literal (envVarPath nodeType))
      (.quoted, 0) := by
    cases nodeType <;> decide
  have hend : Scans (.quoted, 0) "\"".toList [.closing] (.bare, 0) := rfl
  have h := hecho.append <| (Scans.field 0 value).append <| hfile.append <| hpath.append hend
  simpa [script, toList_render, pieces, envVarFileReading, word, Piece.render] using h

theorem scans_appendTrustedPeer (address dir : String) :
    Scans (.gap, 0) (appendTrustedPeer address dir).script.toList
      (appendTrustedPeerReading address (Text.dropTrailing '/' dir)) (.bare, 0) := by
  have hmkdir : Scans (.gap, 0) "#!/bin/sh\nmkdir -p \"".toList (code "\nmkdir -p " ++ [.opening])
      (.quoted, 0) := rfl
  have hif : Scans (.quoted, 0) "\"\nif [ ! -f \"".toList
      (.closing :: code "\nif [ ! -f " ++ [.opening]) (.quoted, 0) := rfl
  have hlist : Scans (.quoted, 0) ("/" ++ trustedPeersList).toList (literal "/TRUSTED_PEERS")
      (.quoted, 0) := rfl
  have hthen : Scans (.quoted, 0) "\" ]; then\n  if [ -f \"".toList
      (.closing :: code " ]; then\n  if [ -f " ++ [.opening]) (.quoted, 0) := rfl
  have hown : Scans (.quoted, 0) trustedPeerFile.toList (literal trustedPeerFile)
      (.quoted, 0) := rfl
  have hcp : Scans (.quoted, 0) "\" ]; then\n    cp \"".toList
      (.closing :: code " ]; then\n    cp " ++ [.opening]) (.quoted, 0) := rfl
  have hnext : Scans (.quoted, 0) "\" \"".toList (.closing :: code " " ++ [.opening])
      (.quoted, 0) := rfl
  have helse : Scans (.quoted, 0) "\"\n  else\n    touch \"".toList
      (.closing :: code "\n  else\n    touch " ++ [.opening]) (.quoted, 0) := rfl
  have hfi : Scans (.quoted, 0) "\"\n  fi\nfi\n".toList (.closing :: code "\n  fi\nfi\n")
      (.gap, 0) := rfl
  -- the remark holds a single quote, which would begin a quoted text if it stood in a command
  have hremark : Scans (.gap, 0) "# only add the peer if it isn't in the list yet".toList []
      (.remark, 0) := rfl
  have hgrep : Scans (.remark, 0) "\ngrep -qF \"".toList (code "\ngrep -qF " ++ [.opening])
      (.quoted, 0) := rfl
  have hor : Scans (.quoted, 0) "\" || echo -n \",".toList
      (.closing :: code " || echo -n " ++ .opening :: literal ",") (.quoted, 0) := rfl
  have hadd : Scans (.quoted, 0) "\" >> \"".toList (.closing :: code " >> " ++ [.opening])
      (.quoted, 0) := rfl
  have hcat : Scans (.quoted, 0) "\"\ncat \"".toList (.closing :: code "\ncat " ++ [.opening])
      (.quoted, 0) := rfl
  have hend : Scans (.quoted, 0) "\"".toList [.closing] (.bare, 0) := rfl
  have hdir := Scans.field 0 (Text.dropTrailing '/' dir)
  have haddress := Scans.field 0 address
  have hpath := hdir.append hlist
  have h := hmkdir.append <| hdir.append <| hif.append <| hpath.append <| hthen.append <|
    hown.append <| hcp.append <| hown.append <| hnext.append <| hpath.append <| helse.append <|
    hpath.append <| hfi.append <| hremark.append <| hgrep.append <| haddress.append <|
    hnext.append <| hpath.append <| hor.append <| haddress.append <| hadd.append <|
    hpath.append <| hcat.append <| hpath.append hend
  unfold appendTrustedPeerReading
  simpa [script, toList_render, pieces, word, Piece.render] using h

theorem read?_of_scans {script : String} {marks : List Mark}
    (h : Scans (.gap, 0) script.toList marks (.bare, 0)) : read? script = some marks := by
  unfold Scans at h
  simp [read?, h]

/-- What a shell makes of the scripts that carry values. An escaped value between double quotes
reads as itself, whatever follows its closing quote. In the scripts each value is one part of one
double-quoted word, where it stands for itself and begins no expansion, the directory without the
slashes at its end; everything else is the same for all values. -/
theorem values_read_back :
    (∀ (value : String) (rest : List Char),
      readQuoted ((escape value).toList ++ '"' :: rest) = .word value.toList rest) ∧
    (∀ content path : String,
      read? (writeFile content path).script = some (writeFileReading content path)) ∧
    (∀ (value : String) (nodeType : NodeType),
      read? (envVarFile value nodeType).script = some (envVarFileReading value nodeType)) ∧
    ∀ address dir : String, ∃ stem slashes,
      dir = stem ++ String.ofList (List.replicate slashes '/') ∧ stem.toList.getLast? ≠ some '/' ∧
      read? (appendTrustedPeer address dir).script =
        some (appendTrustedPeerReading address stem) := by
  refine ⟨fun value rest => ?_, fun content path => read?_of_scans (scans_writeFile content path),
    fun value nodeType => read?_of_scans (scans_envVarFile value nodeType), fun address dir => ?_⟩
  · rw [escape, String.toList_ofList]
    exact readQuoted_escape value.toList rest
  · obtain ⟨slashes, hdir, hlast⟩ := Text.exists_dropTrailing '/' dir
    exact ⟨_, slashes, hdir, hlast, read?_of_scans (scans_appendTrustedPeer address dir)⟩

end Command

end Rendezvous
