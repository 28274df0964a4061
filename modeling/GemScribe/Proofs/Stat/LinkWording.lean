import GemScribe.Proofs.Text.Parts
import GemScribe.Stat.Template
import Mathlib.Data.List.Basic

/-!
The phrase tables as a lookup for each link.

The replacements of the tables run over the whole text one after another. In a text of links and of
characters between them, what a table replaces is a whole link: a link begins at the only bracket that opens
it, and two links that share their beginning up to a closing bracket are the same. The wording that takes the
place of a link has no brackets, so that it joins the characters around it and no later entry finds it. What
becomes of a link is therefore the first entry with its name, and nothing else has a part in it.
-/

namespace GemScribe.Phrase

/-! ### Texts of links -/

/-- A part of a text: characters outside of links, or a link with what stands between its brackets. -/
inductive Part where
  | run (t : Text)
  | link (name : Text)

namespace Part

def text : Part → Text
  | run t => t
  | link name => '[' :: (name ++ [']'])

/-- The characters of a part, without the brackets of a link. -/
def body : Part → Text
  | run t => t
  | link name => name

/-- There are no brackets but those of the link. -/
def Bare (p : Part) : Prop :=
  '[' ∉ p.body ∧ ']' ∉ p.body

instance (p : Part) : Decidable p.Bare := by
  unfold Bare
  infer_instance

/-- What becomes of a part when a single entry of a table is replaced. -/
def reworded (entry : Text × Text) : Part → Part
  | run t => run t
  | link name => if entry.1 = (link name).text then run entry.2 else link name

/-- The wording of a part: a link with a singular and a plural becomes one of them, a link that always
becomes the same words becomes those, and everything else stays. -/
def worded (singular : Bool) : Part → Text
  | run t => t
  | link name =>
    match alternatives.lookup (link name).text with
    | some (one, many) => if singular then one else many
    | none => (fixed.lookup (link name).text).getD (link name).text

end Part

/-- The text that parts make up. -/
def write (parts : List Part) : Text :=
  parts.flatMap Part.text

theorem write_cons (p : Part) (parts : List Part) : write (p :: parts) = p.text ++ write parts :=
  List.flatMap_cons

/-! ### One entry -/

/-- An entry of a table that replaces a link, by a wording without brackets. -/
structure Rewords (entry : Text × Text) : Prop where
  link : ∃ name, entry.1 = (Part.link name).text ∧ (Part.link name).Bare
  wording : (Part.run entry.2).Bare

variable {entry : Text × Text} {p : Part} {parts : List Part}

theorem Rewords.bare_reworded (h : Rewords entry) (hp : p.Bare) : (p.reworded entry).Bare := by
  cases p with
  | run t => exact hp
  | link name =>
    rw [Part.reworded]
    split
    · exact h.wording
    · exact hp

/-- The name of a link ends at the first bracket that closes. -/
theorem takeWhile_name {name : Text} (h : ']' ∉ name) (t : Text) :
    (name ++ ']' :: t).takeWhile (· ≠ ']') = name := by
  refine (Text.span_append (fun c hc => ?_) fun c hc => ?_).1
  · exact decide_eq_true (ne_of_mem_of_not_mem hc h)
  · obtain rfl := Option.some.inj hc
    rfl

/-- Two links that begin alike are the same. -/
theorem name_eq_of_startsWith {a b t : Text} (ha : ']' ∉ a) (hb : ']' ∉ b)
    (h : Text.startsWith (Part.link a).text ((Part.link b).text ++ t)) : a = b := by
  obtain ⟨rest, hrest⟩ := Text.startsWith_iff.mp h
  simp only [Part.text, List.cons_append, List.append_assoc, List.nil_append, List.cons.injEq,
    true_and] at hrest
  rw [← takeWhile_name ha rest, hrest, takeWhile_name hb]

/-- A link is found at no part but itself. -/
theorem replaceAll_part {name : Text} (hname : ']' ∉ name) (new : Text) (hp : p.Bare) (t : Text) :
    Text.replaceAll (Part.link name).text new (p.text ++ t) =
      (p.reworded ((Part.link name).text, new)).text ++
        Text.replaceAll (Part.link name).text new t := by
  cases p with
  | run s => exact Text.replaceAll_append_of_not_mem _ _ hp.1 t
  | link b =>
    rw [Part.reworded]
    split
    · next h =>
      dsimp only at h
      rw [← h]
      exact Text.replaceAll_append (List.cons_ne_nil _ _)
    · next h =>
      -- the bracket that opens another link begins no occurrence, and there is no other one in it
      have hstart : Text.startsWith (Part.link name).text ((Part.link b).text ++ t) = false := by
        rw [Bool.eq_false_iff]
        intro hstart
        obtain rfl := name_eq_of_startsWith hname hp.2 hstart
        exact h rfl
      have hrest : '[' ∉ b ++ [']'] := by
        rw [List.mem_append, not_or]
        exact ⟨hp.1, by decide⟩
      have hpass := Text.replaceAll_append_of_not_mem (name ++ [']']) new hrest t
      rw [Part.text, Part.text, List.cons_append] at hstart ⊢
      rw [Text.replaceAll, Text.replaceFrom, hstart]
      exact congrArg ('[' :: ·) hpass

/-- An entry replaces the links of its name. -/
theorem replaceAll_write (h : Rewords entry) : ∀ {parts : List Part}, (∀ p ∈ parts, p.Bare) →
    Text.replaceAll entry.1 entry.2 (write parts) = write (parts.map (Part.reworded entry))
  | [], _ => rfl
  | p :: parts, hparts => by
      rw [List.forall_mem_cons] at hparts
      have ih := replaceAll_write h hparts.2
      obtain ⟨name, hlink, hname⟩ := h.link
      have hclosed : ']' ∉ name := hname.2
      have hpart := replaceAll_part hclosed entry.2 hparts.1 (write parts)
      rw [← hlink] at hpart
      rw [write_cons, List.map_cons, write_cons, ← ih]
      exact hpart

/-! ### Tables -/

/-- What becomes of a part when a whole table is replaced. -/
def Part.rewordedBy (table : List (Text × Text)) (p : Part) : Part :=
  table.foldl (fun p entry => p.reworded entry) p

/-- A table replaces the links of its names. -/
theorem replaceTable_write : ∀ {table : List (Text × Text)}, (∀ entry ∈ table, Rewords entry) →
    ∀ {parts : List Part}, (∀ p ∈ parts, p.Bare) →
      replaceTable table (write parts) = write (parts.map (Part.rewordedBy table))
  | [], _, parts, _ => by
      have hid : Part.rewordedBy [] = id := rfl
      rw [hid, List.map_id]
      rfl
  | entry :: table, htable, parts, hparts => by
      rw [List.forall_mem_cons] at htable
      have hnext : ∀ p ∈ parts.map (Part.reworded entry), p.Bare := by
        rw [List.forall_mem_map]
        exact fun p hp => htable.1.bare_reworded (hparts p hp)
      have hrest := replaceTable_write htable.2 hnext
      rw [List.map_map] at hrest
      rw [replaceTable, List.foldl_cons, replaceAll_write htable.1 hparts]
      exact hrest

theorem rewordedBy_run (t : Text) : ∀ table, (Part.run t).rewordedBy table = .run t
  | [] => rfl
  | _ :: table => rewordedBy_run t table

/-- The first entry with the name of a link decides what becomes of it. -/
theorem text_rewordedBy_link (name : Text) : ∀ table : List (Text × Text),
    ((Part.link name).rewordedBy table).text =
      (table.lookup (Part.link name).text).getD (Part.link name).text
  | [] => rfl
  | (key, new) :: table => by
      rw [Part.rewordedBy, List.foldl_cons, Part.reworded, List.lookup_cons]
      split
      · next h =>
        dsimp only at h
        rw [h, beq_self_eq_true]
        exact congrArg Part.text (rewordedBy_run new table)
      · next h =>
        dsimp only at h
        rw [beq_false_of_ne (Ne.symm h)]
        exact text_rewordedBy_link name table

/-! ### The tables of phrases -/

/-- What stands between the brackets of a listed link. -/
def linkName (link : Text) : Text :=
  link.tail.dropLast

theorem rewords_of_linkName {table : List (Text × Text)}
    (h : ∀ entry ∈ table, entry.1 = (Part.link (linkName entry.1)).text ∧
      (Part.link (linkName entry.1)).Bare ∧ (Part.run entry.2).Bare) :
    ∀ entry ∈ table, Rewords entry := by
  intro entry he
  obtain ⟨hlink, hname, hwording⟩ := h entry he
  exact ⟨⟨_, hlink, hname⟩, hwording⟩

theorem rewords_fixed : ∀ entry ∈ fixed, Rewords entry :=
  rewords_of_linkName (by decide)

theorem rewords_chosen (singular : Bool) : ∀ entry ∈ chosen singular, Rewords entry := by
  cases singular <;> exact rewords_of_linkName (by decide)

theorem lookup_map {α β : Type} (f : α → β) (key : Text) : ∀ table : List (Text × α),
    (table.map fun entry => (entry.1, f entry.2)).lookup key = (table.lookup key).map f
  | [] => rfl
  | (k, a) :: table => by
      rw [List.map_cons, List.lookup_cons, List.lookup_cons, lookup_map f key table]
      cases key == k <;> rfl

/-- The two tables one after the other are one table. -/
theorem settle_eq_replaceTable (singular : Bool) {t : Text}
    (h : ∀ entry ∈ literals, Text.contains entry.1 t = false) :
    settle singular t = replaceTable (chosen singular ++ fixed) t := by
  have hliterals : replaceTable literals t = t :=
    Text.foldl_eq_self fun entry he => Text.replaceAll_of_not_contains (h entry he)
  rw [settle, hliterals, replaceTable, replaceTable, replaceTable, List.foldl_append]

theorem text_rewordedBy (singular : Bool) (p : Part) :
    (p.rewordedBy (chosen singular ++ fixed)).text = p.worded singular := by
  cases p with
  | run t => rw [rewordedBy_run]; rfl
  | link name =>
    have hchosen : (chosen singular).lookup (Part.link name).text =
        (alternatives.lookup (Part.link name).text).map fun words =>
          if singular then words.1 else words.2 :=
      lookup_map (fun words : Text × Text => if singular then words.1 else words.2) _ alternatives
    rw [text_rewordedBy_link, List.lookup_append, hchosen, Part.worded]
    cases alternatives.lookup (Part.link name).text <;> rfl

/-- The phrase tables settle every link on its own: a link with a singular and a plural by the first value
of the step, a link that always becomes the same words by those, and no other one. What stands between the
links is left alone. -/
theorem settle_write (hparts : ∀ p ∈ parts, p.Bare)
    (hliterals : ∀ entry ∈ literals, Text.contains entry.1 (write parts) = false)
    (values : List (List Quantity)) (step : ℕ) :
    settle (Template.isSingular values step) (write parts) =
      parts.flatMap (Part.worded ((Template.valueAt (values.headD []) step).equalsInt 1)) := by
  have hsingular : Template.isSingular values step =
      (Template.valueAt (values.headD []) step).equalsInt 1 := by
    cases values <;> rfl
  have htables : ∀ singular, ∀ entry ∈ chosen singular ++ fixed, Rewords entry := fun singular =>
    List.forall_mem_append.mpr ⟨rewords_chosen singular, rewords_fixed⟩
  rw [hsingular, settle_eq_replaceTable _ hliterals, replaceTable_write (htables _) hparts, write,
    List.flatMap_map]
  simp only [text_rewordedBy]

/-- Links of every kind. -/
def mixedLinks : List Part := [
  .run "6 ".toList, .link "Projectile|Projectiles".toList, .link "Chaos".toList, .run " or ".toList,
  .link "Spell".toList]

theorem settle_mixedLinks : (∀ p ∈ mixedLinks, p.Bare) ∧
    (∀ entry ∈ literals, Text.contains entry.1 (write mixedLinks) = false) ∧
    settle (Template.isSingular [[.whole 6, .whole 1]] 1) (write mixedLinks) =
      "6 ProjectileChaos or [Spell]".toList := by
  have hparts : ∀ p ∈ mixedLinks, p.Bare := by decide
  have hliterals : ∀ entry ∈ literals, Text.contains entry.1 (write mixedLinks) = false := by decide
  refine ⟨hparts, hliterals, ?_⟩
  rw [settle_write hparts hliterals]
  decide

end GemScribe.Phrase
