import Testplan.Discovery
import Testplan.Document
/-!
# Discoveries as documents

How what a crawler found is written as a document and read from one.
-/
namespace Testplan

open Document

def FieldDescriptor.toDocument (f : FieldDescriptor) : Document :=
  .map <| ifSome "name" f.name .text ++ ifSome "label" f.label .text ++
    ifSome "placeholder" f.placeholder .text ++ ifSome "type" f.type .text ++
    always "required" (.bool f.required)

def FieldDescriptor.ofDocument? (d : Document) : Option FieldDescriptor := do
  let ms ← d.record? ["name", "label", "placeholder", "type", "required"]
  return {
    name := ← optional? ms "name" asText?
    label := ← optional? ms "label" asText?
    placeholder := ← optional? ms "placeholder" asText?
    type := ← optional? ms "type" asText?
    required := ← withDefault? ms "required" asBool? false }

def DiscoveredForm.toDocument (f : DiscoveredForm) : Document :=
  .map <| ifSome "selector" f.selector .text ++ ifSome "action" f.action .text ++
    always "fields" (.list (f.fields.map FieldDescriptor.toDocument)) ++
    ifSome "submit" f.submit .text

def DiscoveredForm.ofDocument? (d : Document) : Option DiscoveredForm := do
  let ms ← d.record? ["selector", "action", "fields", "submit"]
  return {
    selector := ← optional? ms "selector" asText?
    action := ← optional? ms "action" asText?
    fields := ← withDefault? ms "fields" (asList? FieldDescriptor.ofDocument?) []
    submit := ← optional? ms "submit" asText? }

def DiscoveredLink.toDocument (l : DiscoveredLink) : Document :=
  .map <| always "href" (.text l.href) ++ ifSome "text" l.text .text

def DiscoveredLink.ofDocument? (d : Document) : Option DiscoveredLink := do
  let ms ← d.record? ["href", "text"]
  return { href := ← required? ms "href" asText?, text := ← optional? ms "text" asText? }

def DiscoveredPage.toDocument (p : DiscoveredPage) : Document :=
  .map <| always "path" (.text p.path) ++ ifSome "title" p.title .text ++
    always "headings" (texts p.headings) ++ always "text" (texts p.text) ++
    always "forms" (.list (p.forms.map DiscoveredForm.toDocument)) ++
    always "links" (.list (p.links.map DiscoveredLink.toDocument)) ++
    always "buttons" (texts p.buttons)

def DiscoveredPage.ofDocument? (d : Document) : Option DiscoveredPage := do
  let ms ← d.record? ["path", "title", "headings", "text", "forms", "links", "buttons"]
  return {
    path := ← required? ms "path" asText?
    title := ← optional? ms "title" asText?
    headings := ← withDefault? ms "headings" (asList? asText?) []
    text := ← withDefault? ms "text" (asList? asText?) []
    forms := ← withDefault? ms "forms" (asList? DiscoveredForm.ofDocument?) []
    links := ← withDefault? ms "links" (asList? DiscoveredLink.ofDocument?) []
    buttons := ← withDefault? ms "buttons" (asList? asText?) [] }

def Discovery.toDocument (d : Discovery) : Document :=
  .map <| ifSome "baseUrl" d.baseUrl .text ++
    always "pages" (.list (d.pages.map DiscoveredPage.toDocument))

def Discovery.ofDocument? (d : Document) : Option Discovery := do
  let ms ← d.record? ["baseUrl", "pages"]
  return {
    baseUrl := ← optional? ms "baseUrl" asText?
    pages := ← withDefault? ms "pages" (asList? DiscoveredPage.ofDocument?) [] }

end Testplan
