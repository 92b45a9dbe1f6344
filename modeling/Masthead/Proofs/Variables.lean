import Masthead.Proofs.Placeholder
import Masthead.Variables
import Masthead.Proofs.Text.Numeral
import Masthead.Proofs.Text.Split
import Masthead.Proofs.Text.Unbroken

/-!
# Values that stand within a line

Where neither the configuration nor what is known of a file holds a terminator, none of the values
that templates are filled with does, and so no line that is rendered from them.
-/

namespace Masthead

open Text

/-! ## Filling -/

namespace Placeholder

theorem unbroken_written {name : Text} (word : name.all isWord = true) : Unbroken (written name) := by
  have apart : isWord '\n' = false ∧ isWord '\r' = false := by decide
  rw [List.all_eq_true] at word
  have unbroken : Unbroken name := by
    constructor <;> intro member <;> have := word _ member
    · simp [apart.1] at this
    · simp [apart.2] at this
  exact .cons (by decide) (.cons (by decide) (unbroken.append (by decide)))

end Placeholder

theorem exists_of_valueOf? {Value : Type} {key : Text} {entries : List (Text × Value)} {value : Value}
    (found : valueOf? key entries = some value) : ∃ entry ∈ entries, entry.2 = value := by
  obtain ⟨entry, listed, equal⟩ := Option.map_eq_some_iff.mp found
  exact ⟨entry, List.mem_of_find?_eq_some listed, equal⟩

namespace Variables

/-- Whether no value holds a part of a terminator. -/
def Unbroken (values : Variables) : Prop :=
  ∀ entry ∈ values, Masthead.Unbroken entry.2

theorem Unbroken.fill {values : Variables} (unbroken : values.Unbroken) {template : Text}
    (plain : Masthead.Unbroken template) : Masthead.Unbroken (values.fill template) := by
  refine Masthead.Unbroken.render_cut plain ?_
  intro name member
  cases found : values.get? name with
  | some value =>
    obtain ⟨entry, listed, rfl⟩ := exists_of_valueOf? found
    exact unbroken entry listed
  | none =>
    -- A placeholder without a value is written as it was read, and its name is a word.
    obtain ⟨rest, size, read⟩ := exists_of_token_mem_cut member
    obtain ⟨_, named, equal⟩ := Option.map_eq_some_iff.mp read
    cases equal
    exact Placeholder.unbroken_written (Placeholder.all_isWord_of_name? named)

theorem Unbroken.get {values : Variables} (unbroken : values.Unbroken) (name : Text) :
    Masthead.Unbroken (values.get name) := by
  rw [Variables.get]
  cases found : values.get? name with
  | none => exact (by decide : Masthead.Unbroken [])
  | some value =>
    obtain ⟨entry, listed, rfl⟩ := exists_of_valueOf? found
    exact unbroken entry listed

theorem Unbroken.set {values : Variables} (unbroken : values.Unbroken) (name : Text) {value : Text}
    (valueUnbroken : Masthead.Unbroken value) : (values.set name value).Unbroken := by
  intro entry member
  rcases List.mem_cons.mp member with rfl | member
  · exact valueUnbroken
  · exact unbroken entry member

theorem Unbroken.append {values others : Variables} (unbroken : values.Unbroken) (othersUnbroken : others.Unbroken) :
    Variables.Unbroken (values ++ others) :=
  fun entry member => (List.mem_append.mp member).elim (unbroken entry) (othersUnbroken entry)

end Variables

/-! ## What the values are made from -/

/-- Every text of a configuration. -/
def Config.texts (config : Config) : List Text :=
  [config.projectName, config.companyName, config.authorEmail, config.authorTitle, config.teamName,
      config.licenseType, config.licenseUrl, config.copyrightNotice, config.projectDescription,
      [config.separatorChar], config.versionFormat, config.customVersionFormat, config.editorName]
    ++ config.copyrightStartYears.toList ++ config.authorFullName.toList ++ config.customLicenseText.toList
    ++ config.timeZone.toList ++ config.extractionSentinels
    ++ (config.commentTokenMap ++ config.shebangPerLanguage).flatMap (fun entry => [entry.1, entry.2])
    ++ config.languageExtensions.flatMap fun entry => entry.1 :: entry.2

/-- Every text in what is known of a file. -/
def FileContext.texts (context : FileContext) : List Text :=
  [context.language, context.fullPath, context.relativePath, context.userName]

theorem eq_of_nonBlank? {text shown : Text} (found : nonBlank? text = some shown) : shown = text := by
  unfold nonBlank? at found
  split at found
  · cases found
  · exact (Option.some.inj found).symm

theorem Unbroken.nonBlank_getD {text fallback : Text} (unbroken : Unbroken text) (fallbackUnbroken : Unbroken fallback) :
    Unbroken ((nonBlank? text).getD fallback) := by
  cases found : nonBlank? text with
  | none => exact fallbackUnbroken
  | some shown => exact eq_of_nonBlank? found ▸ unbroken

/-- The same for a text that may be missing. -/
theorem Unbroken.bind_nonBlank_getD {text : Option Text} {fallback : Text}
    (unbroken : ∀ given, text = some given → Unbroken given) (fallbackUnbroken : Unbroken fallback) :
    Unbroken ((text.bind nonBlank?).getD fallback) := by
  cases text with
  | none => exact fallbackUnbroken
  | some given => exact (unbroken given rfl).nonBlank_getD fallbackUnbroken

/-! ## Paths -/

theorem mem_of_mem_splitOn {separator character : Char} {text piece : Text} (listed : piece ∈ splitOn separator text)
    (member : character ∈ piece) : character ∈ text := by
  induction text using pieceInduction separator with
  | last text absent =>
    rw [splitOn_of_not_mem absent, List.mem_singleton] at listed
    exact listed ▸ member
  | more first rest absent inductionHypothesis =>
    rw [splitOn_append absent, List.mem_cons] at listed
    rcases listed with rfl | listed
    · exact List.mem_append_left _ member
    · exact List.mem_append_right _ (List.mem_cons_of_mem _ (inductionHypothesis listed))

namespace Path

theorem mem_of_mem_fileName? {path : Path} {name : Text} {character : Char} (found : path.fileName? = some name)
    (member : character ∈ name) : character ∈ path := by
  unfold fileName? at found
  split at found
  · next text last =>
    cases found
    have listed := List.mem_of_getLast? last
    -- Only a part of the path is a name; the root and a leading dot are none.
    have named : PathComponent.name name ∈ (splitOn '/' path).filterMap componentOf? := by
      unfold components at listed
      dsimp only at listed
      split at listed
      · exact (List.mem_cons.mp listed).resolve_left (fun equal => nomatch equal)
      · split at listed
        · exact (List.mem_cons.mp listed).resolve_left (fun equal => nomatch equal)
        · exact listed
    obtain ⟨part, partListed, stands⟩ := List.mem_filterMap.mp named
    have same : part = name := by
      unfold componentOf? at stands
      split at stands
      · cases stands
      · split at stands <;> cases stands
        rfl
    exact mem_of_mem_splitOn partListed (same ▸ member)
  · cases found

theorem mem_of_mem_stem? {path : Path} {stem : Text} {character : Char} (found : path.stem? = some stem)
    (member : character ∈ stem) : character ∈ path := by
  obtain ⟨name, named, rfl⟩ := Option.map_eq_some_iff.mp found
  refine mem_of_mem_fileName? named ?_
  unfold splitName at member
  dsimp only at member
  split at member
  · exact member
  · exact List.mem_of_mem_take member

end Path

/-! ## Dates -/

theorem Calendar.DatePart.unbroken_value (moment : Calendar.Moment) (part : Calendar.DatePart) :
    Unbroken (part.value moment) := by
  cases part with
  | year => exact .paddedInteger _ _
  | _ => exact .paddedDecimal _ _

theorem Calendar.Moment.unbroken_format (moment : Calendar.Moment) {pattern : Text} (plain : Unbroken pattern) :
    Unbroken (moment.format pattern) :=
  Unbroken.render_cut plain fun part _ => part.unbroken_value moment

/-- What is no token of a pattern is copied, and what is written for a token is a numeral. -/
theorem Calendar.Moment.of_mem_format {moment : Calendar.Moment} {pattern : Text} {character : Char}
    (member : character ∈ moment.format pattern) : character ∈ pattern ++ '-' :: decimalDigits := by
  rw [List.mem_append, List.mem_cons]
  rcases mem_render_iff.mp member with member | ⟨part, -, inside⟩
  · exact .inl (mem_of_plain_mem_cut member)
  · cases part with
    | year => exact .inr (of_mem_paddedInteger inside)
    | _ => exact .inr (.inr (mem_decimalDigits_of_mem_paddedDecimal inside))

/-! ## All values -/

namespace Variables

theorem unbroken_licenseStatement (license : Text) {custom : Option Text}
    (customUnbroken : ∀ given, custom = some given → Masthead.Unbroken given) :
    Masthead.Unbroken (licenseStatement license custom) := by
  have defaultUnbroken : Masthead.Unbroken defaultLicense := by decide
  unfold licenseStatement
  cases found : valueOf? license licenseStatements with
  | some statement =>
    obtain ⟨entry, listed, rfl⟩ := exists_of_valueOf? found
    have all : ∀ entry ∈ licenseStatements, Masthead.Unbroken entry.2 := by decide +kernel
    exact all entry listed
  | none => exact .bind_nonBlank_getD customUnbroken defaultUnbroken

section

variable {config : Config} {context : FileContext} (configUnbroken : ∀ text ∈ config.texts, Masthead.Unbroken text)
  (contextUnbroken : ∀ text ∈ context.texts, Masthead.Unbroken text)

include configUnbroken

theorem unbroken_commentOf (context : FileContext) : Masthead.Unbroken (commentOf config context) := by
  have builtin : ∀ entry ∈ builtinSyntax, Masthead.Unbroken entry.2.headerToken := by decide +kernel
  unfold commentOf LanguageTable.resolve
  -- A token is the user's own, which is a text of the configuration, or that of the table, or the default.
  cases found : config.languages.userToken? context.language with
  | some token =>
    have listed : ∃ entry ∈ config.commentTokenMap, entry.2 = token := by
      unfold LanguageTable.userToken? at found
      split at found
      · next direct =>
        cases found
        exact exists_of_valueOf? direct
      · obtain ⟨undotted, -, behind⟩ := Option.bind_eq_some_iff.mp found
        exact exists_of_valueOf? behind
    obtain ⟨entry, member, rfl⟩ := listed
    show Masthead.Unbroken entry.2
    apply configUnbroken
    simp only [Config.texts, List.mem_append, List.mem_flatMap]
    exact .inl (.inr ⟨entry, .inl member, by simp⟩)
  | none =>
    cases known : LanguageTable.builtinOf? (config.languages.extensionFor context.language) with
    | some delimiters =>
      obtain ⟨entry, listed, rfl⟩ := exists_of_valueOf? known
      exact builtin entry listed
    | none => decide

include contextUnbroken

theorem unbroken_authorName : Masthead.Unbroken (authorName config context) := by
  have userUnbroken : Masthead.Unbroken ((nonBlank? context.userName).getD unknownUser) :=
    .nonBlank_getD (contextUnbroken _ (by simp [FileContext.texts])) (by decide)
  unfold authorName
  split
  · next name found =>
    obtain ⟨given, named, shown⟩ := Option.bind_eq_some_iff.mp found
    rw [eq_of_nonBlank? shown]
    exact configUnbroken _ (by simp [Config.texts, named])
  · exact userUnbroken

theorem unbroken_ofFile : (ofFile config context).Unbroken := by
  -- Values are texts of the configuration or the context, parts of a path, or joined from such texts.
  have token := unbroken_commentOf configUnbroken context
  have separator : Masthead.Unbroken (ruleBehind (commentOf config context) config.separatorChar config.separatorLength) :=
    (configUnbroken [config.separatorChar] (by simp [Config.texts])).replicate _
  have fullPath : Masthead.Unbroken context.fullPath := contextUnbroken _ (by simp [FileContext.texts])
  have relativePath : Masthead.Unbroken context.relativePath := contextUnbroken _ (by simp [FileContext.texts])
  have fileName : Masthead.Unbroken ((Path.fileName? context.fullPath).getD context.fullPath) := by
    cases found : Path.fileName? context.fullPath with
    | none => exact fullPath
    | some name => exact fullPath.of_subset fun _ => Path.mem_of_mem_fileName? found
  have stem : Masthead.Unbroken ((Path.stem? context.fullPath).getD []) := by
    cases found : Path.stem? context.fullPath with
    | none => decide
    | some stem => exact fullPath.of_subset fun _ => Path.mem_of_mem_stem? found
  have editor : Masthead.Unbroken (editorInfo config context) := by
    have name : Masthead.Unbroken config.editorName := configUnbroken _ (by simp [Config.texts])
    have indentation : Masthead.Unbroken (if context.insertSpaces then ("space" : Text) else "tab") := by
      split <;> decide
    exact ((((name.append (by decide)).append indentation).append (by decide)).append (.decimal _)).append (by decide)
  have user : Masthead.Unbroken ((nonBlank? context.userName).getD unknownUser) :=
    .nonBlank_getD (contextUnbroken _ (by simp [FileContext.texts])) (by decide)
  simp only [Variables.Unbroken, ofFile, List.forall_mem_cons]
  exact ⟨token, separator, fileName, fullPath, relativePath, stem, editor, user, fun _ none => nomatch none⟩

omit contextUnbroken

theorem unbroken_ofAuthor {author : Text} (unbroken : Masthead.Unbroken author) : (ofAuthor config author).Unbroken := by
  -- All values are texts of the configuration, or joined from them by signs without a line break.
  have email : Masthead.Unbroken config.authorEmail := configUnbroken _ (by simp [Config.texts])
  have title : Masthead.Unbroken config.authorTitle := configUnbroken _ (by simp [Config.texts])
  have team : Masthead.Unbroken config.teamName := configUnbroken _ (by simp [Config.texts])
  have fullName : Masthead.Unbroken (config.authorFullName.getD []) := by
    cases given : config.authorFullName with
    | none => decide
    | some name => exact configUnbroken _ (by simp [Config.texts, given])
  have titled : Masthead.Unbroken (authorWithTitle author config.authorTitle config.authorEmail) := by
    unfold authorWithTitle
    dsimp only
    have named : Masthead.Unbroken
        (if isBlank config.authorTitle then author else author ++ " - ".toList ++ config.authorTitle) := by
      split
      · exact unbroken
      · exact (unbroken.append (by decide)).append title
    split
    · exact named
    · exact ((named.append (by decide)).append email).append (by decide)
  have addressed : Masthead.Unbroken (authorWithEmail author config.authorEmail) := by
    unfold authorWithEmail
    split
    · exact unbroken
    · exact ((unbroken.append (by decide)).append email).append (by decide)
  simp only [Variables.Unbroken, ofAuthor, List.forall_mem_cons]
  exact ⟨unbroken, unbroken, email, fullName, title, titled, addressed, team, fun _ none => nomatch none⟩

theorem unbroken_startYear {currentYear : Text} (unbroken : Masthead.Unbroken currentYear) :
    Masthead.Unbroken (startYear config currentYear) :=
  .bind_nonBlank_getD (fun given found => configUnbroken given (by simp [Config.texts, found])) unbroken

theorem unbroken_ofProject {author currentYear : Text} (unbroken : Masthead.Unbroken author)
    (yearUnbroken : Masthead.Unbroken currentYear) : (ofProject config author currentYear).Unbroken := by
  have project : Masthead.Unbroken config.projectName := configUnbroken _ (by simp [Config.texts])
  have company : Masthead.Unbroken config.companyName := configUnbroken _ (by simp [Config.texts])
  have description : Masthead.Unbroken (projectDescription config) := by
    have values : Variables.Unbroken [("projectName", config.projectName)] := by
      simpa only [Variables.Unbroken, List.forall_mem_singleton] using project
    exact values.fill (configUnbroken _ (by simp [Config.texts]))
  -- The notice of the copyright is itself a template, filled with values of its own.
  have copyright : Masthead.Unbroken (copyrightNotice config author currentYear) := by
    refine Variables.Unbroken.fill ?_ (configUnbroken _ (by simp [Config.texts]))
    simp only [Variables.Unbroken, List.forall_mem_cons]
    exact ⟨unbroken_startYear configUnbroken yearUnbroken, yearUnbroken, company, unbroken, fun _ none => nomatch none⟩
  have license : Masthead.Unbroken (licenseStatement config.licenseType config.customLicenseText) :=
    unbroken_licenseStatement _ fun given found => configUnbroken given (by simp [Config.texts, found])
  have licenseType : Masthead.Unbroken config.licenseType := configUnbroken _ (by simp [Config.texts])
  have licenseUrl : Masthead.Unbroken config.licenseUrl := configUnbroken _ (by simp [Config.texts])
  simp only [Variables.Unbroken, ofProject, List.forall_mem_cons]
  exact ⟨project, description, description, company, copyright, copyright, license, licenseType, licenseUrl,
    by decide, by decide, fun _ none => nomatch none⟩

theorem unbroken_ofInstant (now : Calendar.Instant) (zone : Option Text) : (ofInstant config now zone).Unbroken := by
  have today : Masthead.Unbroken (now.today zone) := Calendar.Moment.unbroken_format _ (by decide)
  have timestamp : Masthead.Unbroken (now.timestamp zone) := Calendar.Moment.unbroken_format _ (by decide)
  have year : Masthead.Unbroken (now.yearIn zone) := Calendar.Moment.unbroken_format _ (by decide)
  simp only [Variables.Unbroken, ofInstant, List.forall_mem_cons]
  exact ⟨today, today, today, timestamp, year, unbroken_startYear configUnbroken year, year, fun _ none => nomatch none⟩

include contextUnbroken

/-- No value for a file holds a terminator, if no text that it is made from does. -/
theorem unbroken_resolve (now : Calendar.Instant) (zone : Option Text) : (resolve now zone config context).Unbroken := by
  have author := unbroken_authorName configUnbroken contextUnbroken
  have year : Masthead.Unbroken (now.yearIn zone) := Calendar.Moment.unbroken_format _ (by decide)
  exact (((unbroken_ofFile configUnbroken contextUnbroken).append (unbroken_ofAuthor configUnbroken author)).append
    (unbroken_ofProject configUnbroken author year)).append (unbroken_ofInstant configUnbroken now zone)

end

end Variables

end Masthead
