import Dotpath.Proofs.EnvFile.Alongside
import Dotpath.Proofs.EnvFile.MarkedAssignments
import Dotpath.Proofs.EnvFile.Marks

/-!
# Dollar signs that stand for themselves

A dollar sign in single quotes or right behind a backslash stands for itself. It is the reading of a
value that decides on this, and marking and expanding that have to keep to it.

Results:
1. `staysAt_of_literal`: such a dollar sign comes out in its place.
2. `OnlyLiterals.run?_markFrom`, `value_of_onlyLiterals`: a value that has no others is read as it
   stands.
3. `literal_dollars_stay`: dollar signs of a file.
-/

namespace Dotpath

namespace EnvFile

/-! ## A dollar sign of a value -/

/-- A dollar sign of a value behind `front` comes out between what the parts of the value on either
side of it expand to. -/
def StaysAt (lookup : List Char → List Char) (front found final : List Char) : Prop :=
  ∃ state more shown rest, (∀ own, ValueState.start.run? own (markAll front) = some state) ∧
    found = state.output ++ '$' :: more ∧ expand lookup state.output = .ok shown ∧
    expand lookup more = .ok rest ∧ final = shown ++ '$' :: rest

theorem ValueState.output_of_dollar {lookup : List Char → List Char} {state state' : ValueState}
    (h : state.strong = true ∨ state.escaped = true)
    (hnext : state.next? lookup '$' = some state') :
    state'.output = state.output ++ ['$'] := by
  rw [ValueState.next?] at hnext
  split at hnext
  · obtain rfl := Option.some.inj hnext
    rfl
  · next hescaped =>
    have hstrong := h.resolve_right hescaped
    rw [if_pos hstrong] at hnext
    obtain rfl := Option.some.inj hnext
    rfl

/-- A dollar sign that reading finds in single quotes or behind a backslash stays. -/
theorem staysAt_of_literal {own own' : List Char → List Char} {front rest found : List Char}
    {state : ValueState} (hcovered : Covered false .start (front ++ '$' :: rest))
    (hmark : mark ∉ front) (hrun : ValueState.start.run? own front = some state)
    (hended : state.ended = false) (hliteral : state.strong = true ∨ state.escaped = true)
    (hnames : namesEnd own .start front = true)
    (hvalue : value own' (markAll (front ++ '$' :: rest)) = .ok found)
    {lookup : List Char → List Char} {final : List Char}
    (hfinal : expand lookup found = .ok final) : StaysAt lookup front found final := by
  have hnot : false = true → ValueState.start.ended = true := nofun
  obtain ⟨marked, hmarked, halongside, hfollows⟩ :=
    exists_alongside alongside_start ValueState.follows_start rfl hnot hcovered hmark hnames hrun
      hended
  have hmarked' : marked.ended = false := halongside.ended.trans hended
  have hliteral' : marked.strong = true ∨ marked.escaped = true := by
    rwa [halongside.strong, halongside.escaped]
  have hopen : (MarkState.start.after front).isOpen = false := by
    obtain ⟨hstrong, -, hescaped⟩ := hfollows.flags hmarked'
    exact isOpen_of_quoted (by rwa [← hstrong, ← hescaped])
  -- The dollar sign is not marked, and reading takes it as it is.
  have hsplit : markAll (front ++ '$' :: rest)
      = markAll front ++ '$' :: markFrom ((MarkState.start.after front).next '$') rest := by
    rw [markAll, markFrom_append, markFrom_cons, MarkState.markChar_of_not_isOpen hopen, markAll]
  have hfront : ValueState.start.run? own' (markAll front) = some marked := hmarked own'
  obtain ⟨last, hlast, -, hfinish⟩ := valueFrom_eq_ok.1 hvalue
  rw [hsplit, ValueState.run?_append hfront hmarked', ValueState.run?_of_next? hmarked']
    at hlast
  obtain ⟨next, hnext, hrest⟩ := Option.bind_eq_some_iff.1 hlast
  obtain ⟨more, hmore⟩ := (ValueState.output_of_run? hrest).trans (last.output_finish own')
  rw [ValueState.output_of_dollar hliteral' hnext, List.append_assoc, List.singleton_append,
    hfinish] at hmore
  subst hmore
  have hclosed := (halongside.names_of_quoted hliteral).isClosed
  obtain ⟨shown, rest, hshown, hrest, hfinal⟩ := expand_append_dollar hclosed hfinal
  exact ⟨marked, more, shown, rest, hmarked, rfl, hshown, hrest, hfinal⟩

/-! ## Values without names -/

/-- Every dollar sign that reading comes to is in single quotes or right behind a backslash. -/
def OnlyLiterals (lookup : List Char → List Char) (state : ValueState) (cs : List Char) : Prop :=
  ∀ front rest last, cs = front ++ '$' :: rest → state.run? lookup front = some last →
    last.ended = false → last.strong = true ∨ last.escaped = true

theorem onlyLiterals_iff {lookup : List Char → List Char} {state : ValueState} {cs : List Char} :
    OnlyLiterals lookup state cs ↔ ∀ i < cs.length, cs[i]? = some '$' →
      (state.run? lookup (cs.take i)).all
        (fun last => last.ended || last.strong || last.escaped) := by
  constructor
  · intro h i hi hc
    obtain ⟨_, hget⟩ := List.getElem?_eq_some_iff.1 hc
    have hsplit : cs = cs.take i ++ '$' :: cs.drop (i + 1) := by
      rw [← hget, ← List.drop_eq_getElem_cons hi, List.take_append_drop]
    cases hrun : state.run? lookup (cs.take i) with
    | none => rfl
    | some last =>
      have hlast := h _ _ last hsplit hrun
      cases hended : last.ended with
      | true => simp [hended]
      | false => simpa [hended] using hlast hended
  · rintro h front rest last rfl hrun hended
    have hlast := h front.length (by simp) (by simp)
    rw [List.take_left, hrun, Option.all_some, hended, Bool.false_or, Bool.or_eq_true] at hlast
    exact hlast

instance (lookup : List Char → List Char) (state : ValueState) (cs : List Char) :
    Decidable (OnlyLiterals lookup state cs) :=
  decidable_of_iff _ onlyLiterals_iff.symm

theorem ValueState.mem_output_of_next? {lookup : List Char → List Char} {state state' : ValueState}
    {c other : Char} (hclosed : state.open? = none) (hnext : state.next? lookup c = some state')
    (h : other ∈ state'.output) : other ∈ state.output ∨ other = c ∨ other = '\n' := by
  rw [next?, hclosed] at hnext
  split at hnext
  · grind [escape?, push]
  · grind [plain, push]

namespace OnlyLiterals

variable {own : List Char → List Char} {state : ValueState} {c : Char} {cs : List Char}

theorem head (h : OnlyLiterals own state (c :: cs)) (hended : state.ended = false) (hc : c = '$') :
    state.strong = true ∨ state.escaped = true :=
  h [] cs state (by rw [hc, List.nil_append]) rfl hended

theorem tail (h : OnlyLiterals own state (c :: cs)) {state' : ValueState}
    (hended : state.ended = false) (hnext : state.next? own c = some state') :
    OnlyLiterals own state' cs := by
  intro front rest last hsplit hrun
  refine h (c :: front) rest last (by rw [hsplit, List.cons_append]) ?_
  rw [ValueState.run?_of_next? hended, hnext, Option.bind_some, hrun]

theorem of_ended (hended : state.ended = true) : OnlyLiterals own state cs := by
  intro front rest last _ hrun hlast
  rw [ValueState.run?_of_ended hended hrun, hended] at hlast
  exact nomatch hlast

variable {last : ValueState}

/-- No name is looked up. -/
theorem run?_congr (h : OnlyLiterals own state cs) (hclosed : state.open? = none)
    (lookup : List Char → List Char) : state.run? lookup cs = state.run? own cs := by
  induction cs generalizing state with
  | nil => rfl
  | cons c cs ih =>
    cases hended : state.ended with
    | true =>
      rw [ValueState.run?, ValueState.run?, if_pos hended, if_pos hended,
        ih (.of_ended hended) hclosed]
    | false =>
      rw [ValueState.run?_of_next? hended, ValueState.run?_of_next? hended,
        ValueState.next?_congr hclosed]
      cases hnext : state.next? own c with
      | none => rfl
      | some state' =>
        exact ih (h.tail hended hnext) (ValueState.open?_next? hclosed (h.head hended) hnext)

theorem congr (h : OnlyLiterals own state cs) (hclosed : state.open? = none)
    (lookup : List Char → List Char) : OnlyLiterals lookup state cs := by
  rintro front rest last rfl hrun
  have hfront : OnlyLiterals own state front := by
    rintro before after last rfl
    exact h before (after ++ '$' :: rest) last (by simp)
  rw [hfront.run?_congr hclosed] at hrun
  exact h front rest last rfl hrun

theorem of_run? (h : OnlyLiterals own state cs) (hclosed : state.open? = none)
    (hmark : mark ∉ cs) (houtput : mark ∉ state.output)
    (hrun : state.run? own cs = some last) : last.open? = none ∧ mark ∉ last.output := by
  induction cs generalizing state with
  | nil => exact Option.some.inj hrun ▸ ⟨hclosed, houtput⟩
  | cons c cs ih =>
    cases hended : state.ended with
    | true => exact ValueState.run?_of_ended hended hrun ▸ ⟨hclosed, houtput⟩
    | false =>
      rw [ValueState.run?_of_next? hended] at hrun
      obtain ⟨state', hnext, hrest⟩ := Option.bind_eq_some_iff.1 hrun
      rw [List.mem_cons, not_or] at hmark
      refine ih (h.tail hended hnext) (ValueState.open?_next? hclosed (h.head hended) hnext) hmark.2
        (fun hmem => ?_) hrest
      rcases ValueState.mem_output_of_next? hclosed hnext hmem with hmem | hc | hc
      · exact houtput hmem
      · exact hmark.1 hc
      · exact absurd hc (by decide)

/-- Such a value reads the same after marking. -/
theorem run?_markFrom {m : MarkState} {ended : Bool} (h : OnlyLiterals own state cs)
    (hfollows : state.Follows m) (hcomment : m.comment = false)
    (hended : ended = true → state.ended = true) (hcovered : Covered ended m cs) :
    state.run? own (markFrom m cs) = state.run? own cs := by
  induction cs generalizing state m ended with
  | nil => rfl
  | cons c cs ih =>
    rcases hcovered with hnot | ⟨hend, rfl⟩ | ⟨hcomment', hcs⟩
    · rw [markFrom_of_not_mem hnot]
    · rw [markFrom_cons, MarkState.markChar_of_ne (by decide), ValueState.run?, ValueState.run?,
        if_pos (hended hend), if_pos (hended hend)]
      rfl
    · rw [markFrom_cons]
      cases hstate : state.ended with
      | true =>
        have hspace := MarkState.markChar_eq_iff m c (by decide : ' ' ≠ '$') (by decide)
        have htab := MarkState.markChar_eq_iff m c (by decide : '\t' ≠ '$') (by decide)
        have hnumber := MarkState.markChar_eq_iff m c (by decide : '#' ≠ '$') (by decide)
        rw [ValueState.run?, ValueState.run?, if_pos hstate, if_pos hstate,
          ih (.of_ended hstate) (hfollows.of_ended hstate) hcomment' (fun _ => hstate) hcs]
        simp only [hspace, htab, hnumber]
      | false =>
        obtain ⟨hstrong, -, hescaped⟩ := hfollows.flags hstate
        have hdollar (hc : c = '$') : m.strong = true ∨ m.escaped = true := by
          rw [← hstrong, ← hescaped]
          exact h.head hstate hc
        have hchar : m.markChar c = c := by
          by_cases hc : c = '$'
          · exact MarkState.markChar_of_not_isOpen (isOpen_of_quoted (hdollar hc))
          · exact MarkState.markChar_of_ne hc
        rw [hchar, ValueState.run?_of_next? hstate, ValueState.run?_of_next? hstate]
        cases hnext : state.next? own c with
        | none => rfl
        | some state' =>
          exact ih (h.tail hstate hnext) (hfollows.next? hstate hdollar hcomment hcomment' hnext)
            hcomment' (fun hends => ValueState.ended_of_endsAt hfollows hstate hends hnext) hcs

end OnlyLiterals

/-- A value without names reads the same before and after marking, whatever names stand for. -/
theorem value_of_onlyLiterals {own own' : List Char → List Char} {input found : List Char}
    (h : OnlyLiterals own .start input) (hcovered : Covered false .start input)
    (hmark : mark ∉ input) (hvalue : value own' (markAll input) = .ok found) :
    (∀ lookup, value lookup input = .ok found) ∧ mark ∉ found := by
  have hnot : false = true → ValueState.start.ended = true := nofun
  have h' : OnlyLiterals own' .start input := h.congr rfl own'
  obtain ⟨last, hlast, hopen, rfl⟩ := valueFrom_eq_ok.1 hvalue
  rw [markAll, h'.run?_markFrom ValueState.follows_start rfl hnot hcovered] at hlast
  obtain ⟨hclosed, houtput⟩ := h'.of_run? rfl hmark List.not_mem_nil hlast
  have hfinish (lookup : List Char → List Char) : last.finish lookup = last.output := by
    rw [ValueState.finish, hclosed]
  refine ⟨fun lookup => valueFrom_eq_ok.2 ⟨last, ?_, hopen, ?_⟩, ?_⟩
  · rw [h'.run?_congr rfl, hlast]
  · rw [hfinish, hfinish]
  · rwa [hfinish]

/-! ## Texts -/

/-- The entry of an assignment stands where the assignment does. -/
theorem exists_entry {process : Env} {text : List Char} (h : Orderly text) (hmark : mark ∉ text)
    (hfault : (read process (markAll text)).fault = none)
    {before later : List (String × List Char)} {key : String} {input : List Char}
    (hassigned : assignments (lines text) = before ++ (key, input) :: later) :
    ∃ entries found others,
      (read process (markAll text)).entries = entries ++ (key, found) :: others ∧
        entries.map (·.1) = before.map (·.1) ∧ others.map (·.1) = later.map (·.1) ∧
        ∃ lookup, value lookup (markAll input) = .ok found := by
  obtain ⟨all, hall, hread⟩ := exists_entries hfault
  rw [(assignments_markAll h hmark).1, hassigned, List.map_append, List.map_cons] at hread
  rw [List.reverse_nil, List.nil_append] at hall
  obtain ⟨entries, rest, rfl, hbefore, hrest⟩ := exists_append_of_forall₂ hread
  obtain ⟨⟨key', found⟩, others, ⟨rfl, hfound⟩, hlater, rfl⟩ := List.forall₂_cons_left_iff.1 hrest
  have hkeys := keys_of_isRead hbefore
  have hkeys' := keys_of_isRead hlater
  rw [List.map_map] at hkeys hkeys'
  exact ⟨entries, found, others, hall, hkeys, hkeys', hfound⟩

end EnvFile

open EnvFile

/-- In an orderly file without marks, a dollar sign that the reading of the file as it stands finds
in single quotes or right behind a backslash comes out as a dollar sign, between what the parts of
its value on either side come to, unless a name before it runs up against a quote, a backslash or a
blank. A value that has no other dollar signs is the one that this reading has, and is taken in
alike over any two environments with the same names. -/
theorem literal_dollars_stay {files : Files} {path : String} {bytes : List UInt8}
    {text : List Char} (hbytes : files.readBytes path = .ok bytes)
    (htext : Text.decodeUtf8 bytes = .ok text) (hmark : mark ∉ text) (horderly : Orderly text)
    {process env after : Env} {report : EnvReport}
    (haccepted : load (read process) files path env = (after, .ok report))
    {before later : List (String × List Char)} {key : String} {input : List Char}
    (hassigned : assignments (lines text) = before ++ (key, input) :: later) :
    ∃ entries found others earlier final,
      (read process (markAll text)).entries = entries ++ (key, found) :: others ∧
      entries.map (·.1) = before.map (·.1) ∧ others.map (·.1) = later.map (·.1) ∧
      expandEntries env {} entries = .ok earlier ∧
      expand (resolve env earlier) found = .ok final ∧
      ((∀ other ∈ later, other.1 ≠ key) → key ∈ report.applied →
        after.find? key = some (.ofList final)) ∧
      (∀ own front rest state, input = front ++ '$' :: rest →
        ValueState.start.run? own front = some state → state.ended = false →
        state.strong = true ∨ state.escaped = true → namesEnd own .start front = true →
        StaysAt (resolve env earlier) front found final) ∧
      ∀ own, OnlyLiterals own .start input →
        (∀ lookup, value lookup input = .ok final) ∧
        ∀ env' after' report', load (read process) files path env' = (after', .ok report') →
          (∀ name, env'.contains name = env.contains name) →
          (∀ other ∈ later, other.1 ≠ key) →
          (key ∈ report'.applied ↔ key ∈ report.applied) ∧
          (key ∈ report.applied → after'.find? key = after.find? key) := by
  obtain ⟨bytes', text', values, hbytes', -, htext', hfault, hvalues, -⟩ :=
    load_eq_ok_iff.1 haccepted
  obtain rfl := Except.ok.inj (hbytes.symm.trans hbytes')
  obtain rfl := Except.ok.inj (htext.symm.trans htext')
  obtain ⟨entries, found, others, hentries, hkeys, hkeys', own', hfound⟩ :=
    exists_entry horderly hmark hfault hassigned
  obtain ⟨hcovered, hinput⟩ :=
    (assignments_markAll horderly hmark).2 (key, input) (by simp [hassigned])
  rw [hentries] at hvalues
  obtain ⟨earlier, hearlier, hrest⟩ := expandEntries_append_eq_ok.1 hvalues
  obtain ⟨final, hfinal, -⟩ := expandEntries_cons_eq_ok.1 hrest
  have hlast (hlater : ∀ other ∈ later, other.1 ≠ key) : ∀ other ∈ others, other.1 ≠ key := by
    intro other hother hsame
    have hmem : key ∈ later.map (·.1) := hkeys' ▸ List.mem_map.2 ⟨other, hother, hsame⟩
    obtain ⟨other', hother', hsame'⟩ := List.mem_map.1 hmem
    exact hlater other' hother' hsame'
  have hafter (hlater : ∀ other ∈ later, other.1 ≠ key) (hkey : key ∈ report.applied) :
      after.find? key = some (.ofList final) := by
    obtain ⟨happlied, earlier', final', hearlier', hfinal', hfind⟩ :=
      find?_of_load hbytes htext haccepted hentries (hlast hlater)
    obtain rfl := Except.ok.inj (hearlier.symm.trans hearlier')
    obtain rfl := Except.ok.inj (hfinal.symm.trans hfinal')
    rw [hfind, happlied.1 hkey, Option.none_or]
  refine ⟨entries, found, others, earlier, final, hentries, hkeys, hkeys', hearlier, hfinal, hafter,
    ?_, ?_⟩
  · rintro own front rest state rfl hrun hended hliteral hnames
    have hfront : mark ∉ front := fun hmem => hinput (by simp [hmem])
    exact staysAt_of_literal hcovered hfront hrun hended hliteral hnames hfound hfinal
  · intro own hliterals
    obtain ⟨hvalue, hfree⟩ := value_of_onlyLiterals hliterals hcovered hinput hfound
    obtain rfl := Except.ok.inj ((expand_of_not_mem hfree).symm.trans hfinal)
    refine ⟨hvalue, fun env' after' report' hload hnames hlater => ?_⟩
    obtain ⟨happlied, -⟩ := find?_of_load hbytes htext haccepted hentries (hlast hlater)
    obtain ⟨happlied', _, final', -, hfinal', hfind'⟩ :=
      find?_of_load hbytes htext hload hentries (hlast hlater)
    obtain rfl := Except.ok.inj ((expand_of_not_mem hfree).symm.trans hfinal')
    have hsame : key ∈ report'.applied ↔ key ∈ report.applied := by
      rw [happlied, happlied', ← Dict.contains_eq_false_iff, ← Dict.contains_eq_false_iff, hnames]
    refine ⟨hsame, fun hkey => ?_⟩
    rw [hfind', happlied'.1 (hsame.2 hkey), Option.none_or, hafter hlater hkey]

/-- An env file with dollar signs of all kinds: names, in either kind of quotes, escaped, and in a
comment. -/
def priceText : String :=
  "DIR=$HOME/'$x'\nPRICE='$5'\"\\$6\" # it's $7\n"

def priceFiles : Files :=
  .ofEntries [([".env".toList], .file (Files.bytesOf priceText))]

def priceAssignments : List (String × List Char) :=
  [("DIR", "$HOME/'$x'".toList), ("PRICE", "'$5'\"\\$6\"".toList)]

theorem literal_dollars_stay_price :
    priceFiles.readBytes ".env" = .ok (Files.bytesOf priceText) ∧
    Text.decodeUtf8 (Files.bytesOf priceText) = .ok priceText.toList ∧
    mark ∉ priceText.toList ∧ Orderly priceText.toList ∧
    load (read {}) priceFiles ".env" homeEnv
      = (.ofList [("DIR", "/virtual/$x"), ("HOME", "/virtual"), ("PRICE", "$5$6")],
        .ok ⟨".env", ["DIR", "PRICE"], []⟩) ∧
    assignments (lines priceText.toList) = priceAssignments ∧
    (∃ earlier found, StaysAt (resolve homeEnv earlier) "$HOME/'".toList found
      "/virtual/$x".toList) ∧
    ∀ env after report, load (read {}) priceFiles ".env" env = (after, .ok report) →
      (∀ name, env.contains name = homeEnv.contains name) →
      "PRICE" ∈ report.applied ∧ after.find? "PRICE" = some "$5$6" := by
  have hread : priceFiles.readBytes ".env" = .ok (Files.bytesOf priceText) := by decide +kernel
  have htext := Text.decodeUtf8_bytesOf priceText
  have hmark : mark ∉ priceText.toList := by decide
  have horderly : Orderly priceText.toList := by decide +kernel
  have hload : load (read {}) priceFiles ".env" homeEnv
      = (.ofList [("DIR", "/virtual/$x"), ("HOME", "/virtual"), ("PRICE", "$5$6")],
        .ok ⟨".env", ["DIR", "PRICE"], []⟩) := by decide +kernel
  have hassigned : assignments (lines priceText.toList) = priceAssignments := by decide +kernel
  refine ⟨hread, htext, hmark, horderly, hload, hassigned, ?_, ?_⟩
  · have hdir : assignments (lines priceText.toList)
        = [] ++ ("DIR", "$HOME/'$x'".toList) :: [("PRICE", "'$5'\"\\$6\"".toList)] := hassigned
    obtain ⟨_, found, _, earlier, final, -, -, -, -, -, hafter, hstays, -⟩ :=
      literal_dollars_stay hread htext hmark horderly hload hdir
    have hshown : some "/virtual/$x" = some (String.ofList final) :=
      hafter (by decide) (by decide)
    have hfinal : final = "/virtual/$x".toList := by
      rw [Option.some.inj hshown, String.toList_ofList]
    have hrun : ValueState.start.run? (fun _ => []) "$HOME/'".toList
        = some ⟨"/".toList, true, false, false, false, none⟩ := rfl
    have hdollar := hstays (fun _ => []) _ ['x', '\''] _ rfl hrun rfl (.inl rfl) (by decide +kernel)
    exact ⟨earlier, found, hfinal ▸ hdollar⟩
  · have hprice : assignments (lines priceText.toList)
        = [("DIR", "$HOME/'$x'".toList)] ++ ("PRICE", "'$5'\"\\$6\"".toList) :: [] := hassigned
    obtain ⟨_, _, _, _, _, -, -, -, -, -, -, -, hsame⟩ :=
      literal_dollars_stay hread htext hmark horderly hload hprice
    have hliterals : OnlyLiterals (fun _ => []) .start "'$5'\"\\$6\"".toList := by decide +kernel
    intro env after report hload' hnames
    obtain ⟨happlied, hfind⟩ := (hsame _ hliterals).2 env after report hload' hnames (by decide)
    refine ⟨happlied.2 (by decide), ?_⟩
    rw [hfind (by decide)]
    decide +kernel

/-- The blank before the number sign is escaped, so that there is no comment. Marking finds one, and
misses the quote in it. -/
def hiddenQuoteText : String :=
  "A=\\ #'\n$HOME'\n"

def hiddenQuoteFiles : Files :=
  .ofEntries [([".env".toList], .file (Files.bytesOf hiddenQuoteText))]

def otherEnv : Env :=
  .ofList [("HOME", "/other")]

theorem literal_dollar_replaced :
    mark ∉ hiddenQuoteText.toList ∧
    assignments (lines hiddenQuoteText.toList) = [("A", "\\ #'\n$HOME'".toList)] ∧
    OnlyLiterals (fun _ => []) .start "\\ #'\n$HOME'".toList ∧
    value (fun _ => []) "\\ #'\n$HOME'".toList = .ok " #\n$HOME".toList ∧
    load (read {}) hiddenQuoteFiles ".env" homeEnv
      = (.ofList [("A", " #\n/virtual"), ("HOME", "/virtual")], .ok ⟨".env", ["A"], []⟩) ∧
    load (read {}) hiddenQuoteFiles ".env" otherEnv
      = (.ofList [("A", " #\n/other"), ("HOME", "/other")], .ok ⟨".env", ["A"], []⟩) := by
  decide +kernel

end Dotpath
