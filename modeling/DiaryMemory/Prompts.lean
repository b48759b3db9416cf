import DiaryMemory.AnswerSchema

/-!
# The prompts

The prompt of each answer pipeline, rendered from the question and the chunks (and
excerpts) it may cite. A context whose chunks belong to more than one community is
refused (`checkSingleCommunity`).
-/

namespace DiaryMemory

def promptVersion : String := "v1"

def notesPlusModelPromptVersion : String := "notes-plus-model-v1"

def notesPlusKnowledgePromptVersion : String := "notes-plus-knowledge-v1"

def modelOnlyPromptVersion : String := "model-only-v1"

def answerSystemText : String :=
  "You answer the user's question using only the provided diary chunks. Every " ++
  "factual claim must cite at least one chunk_id from the list. Return a single " ++
  "JSON object with these fields: \"answer_text\" (string), \"cited_chunk_ids\" " ++
  "(array of chunk_id strings drawn from the list), \"uncertainty\" (one of " ++
  "\"confident\", \"uncertain\", \"no_evidence\"). If the chunks do not contain the " ++
  "answer, return uncertainty=\"no_evidence\" with an empty cited_chunk_ids array."

def escalationClause : String :=
  "You may give general developmental information and activity suggestions. You " ++
  "must never give a diagnosis or interpret symptoms. If the question or the " ++
  "provided notes suggest a potential developmental or medical red flag, your " ++
  "answer must recommend consulting a qualified specialist."

def notesPlusModelSystemText : String :=
  "You answer the user's question by combining two planes: their saved notes " ++
  "(provided below as chunks) and your own general knowledge. Return a single " ++
  "JSON object with these fields: \"notes_text\" (string — only claims grounded in " ++
  "the provided chunks; every factual claim must cite at least one chunk_id), " ++
  "\"cited_chunk_ids\" (array of chunk_id strings drawn from the list), " ++
  "\"model_text\" (string — your general knowledge; never attribute it to the " ++
  "notes), \"notes_uncertainty\" (one of \"confident\", \"uncertain\", \"no_evidence\"). " ++
  "If the chunks do not contain anything relevant, return " ++
  "notes_uncertainty=\"no_evidence\" with an empty notes_text and an empty " ++
  "cited_chunk_ids array, and answer from general knowledge in model_text alone. " ++
  escalationClause

def notesPlusKnowledgeSystemText : String :=
  "You answer the user's question by combining three planes: their saved notes " ++
  "(provided below as chunks), retrieved knowledge excerpts (provided below with " ++
  "refs), and your own general knowledge. Return a single JSON object with these " ++
  "fields: \"notes_text\" (string — only claims grounded in the provided chunks; " ++
  "every factual claim must cite at least one chunk_id), \"cited_chunk_ids\" " ++
  "(array of chunk_id strings drawn from the list), \"knowledge_text\" (string — " ++
  "only claims grounded in the provided excerpts; every factual claim must cite " ++
  "at least one ref), \"cited_knowledge_refs\" (array of ref strings drawn from " ++
  "the excerpt list), \"model_text\" (string — your general knowledge; never " ++
  "attribute it to the notes or the excerpts), \"notes_uncertainty\" (one of " ++
  "\"confident\", \"uncertain\", \"no_evidence\"). If the chunks do not contain " ++
  "anything relevant, return notes_uncertainty=\"no_evidence\" with an empty " ++
  "notes_text and an empty cited_chunk_ids array. If the excerpts do not contain " ++
  "anything relevant, return an empty knowledge_text and an empty " ++
  "cited_knowledge_refs array, and answer from general knowledge in model_text " ++
  "alone. " ++
  escalationClause

def modelOnlySystemText : String :=
  "You answer the user's question from your own general knowledge. You have no " ++
  "access to the user's saved notes, and you must never claim or imply that any " ++
  "part of your answer comes from their notes. Return a single JSON object with " ++
  "one field: \"answer_text\" (string)."

/-- The prompt chunks of a context must belong to one community. -/
def checkSingleCommunity (json : JsonModule) (context : AnswerContext) : Except Exn Unit :=
  let communities := (context.orderedChunks.map EventChunk.communityId).dedup
  if communities.length > 1 then
    throw (.crossCommunityContext ("AnswerContext.ordered_chunks span multiple communities: " ++
      json.reprList (communities.insertionSort (· ≤ ·))))
  else pure ()

/-- The line of one chunk. -/
def chunkLine (chunk : EventChunk) : String :=
  "- chunk_id=" ++ chunk.chunkId ++ " date=" ++ chunk.noteDate.isoformat ++ " event_index=" ++
    toString chunk.eventIndex ++ " text=" ++ chunk.chunkText

/-- The lines of the chunks, or what stands in for them. -/
def chunksBlock (placeholder : String) (context : AnswerContext) : String :=
  if context.orderedChunks = [] then placeholder
  else "\n".intercalate (context.orderedChunks.map chunkLine)

/-- The line of one excerpt. -/
def excerptLine (excerpt : KnowledgeExcerpt) : String :=
  "- ref=" ++ excerpt.ref ++ " title=" ++ excerpt.title ++ " text=" ++ excerpt.text

/-- The lines of the excerpts, or what stands in for them. -/
def excerptsBlock (excerpts : List KnowledgeExcerpt) : String :=
  if excerpts = [] then "(no knowledge excerpts were retrieved for this question)"
  else "\n".intercalate (excerpts.map excerptLine)

/-- `build_answer_prompt`. -/
def buildAnswerPrompt (json : JsonModule) (context : AnswerContext) : Except Exn AnswerPrompt := do
  checkSingleCommunity json context
  pure { promptVersion, systemText := answerSystemText
         userText := "Question: " ++ context.queryText ++
           "\n\nDiary chunks (in retrieval rank order):\n" ++
           chunksBlock "(no diary chunks were retrieved for this question)" context
         citedChunkIds := context.chunkIds }

/-- `build_notes_plus_model_prompt`. -/
def buildNotesPlusModelPrompt (json : JsonModule) (context : AnswerContext) :
    Except Exn AnswerPrompt := do
  checkSingleCommunity json context
  pure { promptVersion := notesPlusModelPromptVersion, systemText := notesPlusModelSystemText
         userText := "Question: " ++ context.queryText ++
           "\n\nNote chunks (in retrieval rank order):\n" ++
           chunksBlock "(no note chunks were retrieved for this question)" context
         citedChunkIds := context.chunkIds }

/-- `build_notes_plus_knowledge_prompt`. -/
def buildNotesPlusKnowledgePrompt (json : JsonModule) (context : AnswerContext)
    (excerpts : List KnowledgeExcerpt) : Except Exn AnswerPrompt := do
  checkSingleCommunity json context
  pure { promptVersion := notesPlusKnowledgePromptVersion
         systemText := notesPlusKnowledgeSystemText
         userText := "Question: " ++ context.queryText ++
           "\n\nNote chunks (in retrieval rank order):\n" ++
           chunksBlock "(no note chunks were retrieved for this question)" context ++
           "\n\nKnowledge excerpts (in provider rank order):\n" ++ excerptsBlock excerpts
         citedChunkIds := context.chunkIds
         knowledgeRefs := excerpts.map KnowledgeExcerpt.ref }

/-- `build_model_only_prompt`. -/
def buildModelOnlyPrompt (question : String) : AnswerPrompt where
  promptVersion := modelOnlyPromptVersion
  systemText := modelOnlySystemText
  userText := "Question: " ++ question
  citedChunkIds := []

end DiaryMemory
